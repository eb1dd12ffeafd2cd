import CivicConnect.Contracts.Erc20
import CivicConnect.Library.EventLog

/-!
# The log of transfers

The events `Transfer` of a run, from the one that the constructor emits, are
all that it takes to know the balances.
-/

namespace CivicConnect.Contracts

structure Transfer where
  src : Address
  dst : Address
  value : Uint256
  deriving DecidableEq

def Receipt.transferred (receipt : Receipt) : Option Transfer :=
  match receipt.result with
  | .ok (.transfer src dst value) => some ⟨src, dst, value⟩
  | _ => none

namespace Transfer

/-- What a reader of the log makes of an event. The balance of the source ends at
zero where the amount is more, as it is for the event of the constructor: the zero
address has nothing. -/
def replay (balances : Address → ℕ) (e : Transfer) : Address → ℕ :=
  Ledger.move balances e.src e.dst e.value.toNat

/-- No event goes to the zero address or takes more than is there. -/
def Covered (balances : Address → ℕ) (e : Transfer) : Prop :=
  e.dst ≠ zeroAddress ∧ e.value.toNat ≤ balances e.src

/-- The event of the constructor. -/
def minted (deployer : Address) : Transfer :=
  ⟨zeroAddress, deployer, (IndieWeb2Token.construct deployer).totalSupply⟩

end Transfer

namespace IndieWeb2Token

variable {t t' : IndieWeb2Token} {sender src dst : Address} {value : Uint256} {event : Event}

theorem transfer_event (h : t.transfer sender dst value = .ok (t', event)) :
    event = .transfer sender dst value := by
  obtain ⟨_, _, h⟩ := Except.bind_ok_iff.mp h
  obtain ⟨_, _, h⟩ := Except.bind_ok_iff.mp h
  obtain ⟨_, _, h⟩ := Except.bind_ok_iff.mp h
  obtain ⟨_, _, h⟩ := Except.bind_ok_iff.mp h
  exact (Prod.mk.inj (Except.ok.inj h)).2.symm

theorem transferFrom_event (h : t.transferFrom sender src dst value = .ok (t', event)) :
    event = .transfer src dst value := by
  obtain ⟨_, _, h⟩ := Except.bind_ok_iff.mp h
  obtain ⟨_, _, h⟩ := Except.bind_ok_iff.mp h
  obtain ⟨_, _, h⟩ := Except.bind_ok_iff.mp h
  obtain ⟨_, _, h⟩ := Except.bind_ok_iff.mp h
  obtain ⟨_, _, h⟩ := Except.bind_ok_iff.mp h
  obtain ⟨_, _, h⟩ := Except.bind_ok_iff.mp h
  exact (Prod.mk.inj (Except.ok.inj h)).2.symm

/-- A call leaves the balances alone and logs no transfer, or it moves a covered
amount and logs this move. -/
theorem step_transfer_cases (t : IndieWeb2Token) (call : Call) :
    ((t.step call).1.balances = t.balances ∧ (t.step call).2.transferred = none) ∨
      ∃ e : Transfer, e.Covered t.balances ∧ (t.step call).1.balances = e.replay t.balances ∧
        (t.step call).2.transferred = some e := by
  rw [step]
  cases hrun : t.run call with
  | error err => exact Or.inl ⟨rfl, rfl⟩
  | ok result =>
      obtain ⟨t', event⟩ := result
      obtain ⟨sender, function⟩ := call
      cases function with
      | transfer dst value =>
          obtain ⟨hdst, hbalance, hmoves⟩ := transfer_ok hrun
          obtain rfl := transfer_event hrun
          exact Or.inr ⟨⟨sender, dst, value⟩, ⟨hdst, hbalance⟩, hmoves.balances, rfl⟩
      | approve spender value =>
          obtain ⟨rfl, rfl⟩ := Prod.mk.inj (Except.ok.inj hrun)
          exact Or.inl ⟨rfl, rfl⟩
      | transferFrom src dst value =>
          obtain ⟨hdst, hbalance, _, moved, hmoves, rfl⟩ := transferFrom_ok hrun
          obtain rfl := transferFrom_event hrun
          exact Or.inr ⟨⟨src, dst, value⟩, ⟨hdst, hbalance⟩, hmoves.balances, rfl⟩

/-- A covered move is what a transfer by its source does: the credit cannot
overflow. -/
theorem exists_call_of_covered {deployer : Address} (h : Sound deployer t) {e : Transfer}
    (hcovered : e.Covered t.balances) : ∃ call, (t.step call).2.transferred = some e := by
  obtain ⟨src, dst, value⟩ := e
  obtain ⟨hdst, hbalance⟩ := hcovered
  have hheld : value ≤ t.balanceOf src := hbalance
  obtain ⟨debited, credited, hdebit, hcredit⟩ := h.exists_move hheld dst
  have hrun : t.run ⟨src, .transfer dst value⟩ = .ok (credited, .transfer src dst value) := by
    refine Except.bind_ok_iff.mpr ⟨(), require_ok_iff.mpr hdst, ?_⟩
    refine Except.bind_ok_iff.mpr ⟨(), require_ok_iff.mpr hheld, ?_⟩
    refine Except.bind_ok_iff.mpr ⟨debited, hdebit, ?_⟩
    exact Except.bind_ok_iff.mpr ⟨credited, hcredit, rfl⟩
  refine ⟨⟨src, .transfer dst value⟩, ?_⟩
  rw [step, hrun]
  rfl

theorem sourced (deployer : Address) : EventLog.Sourced step Receipt.transferred balances
    (fun balances e => e.replay balances) (fun balances e => e.Covered balances)
    (Sound deployer) where
  keep _ call h := h.step call
  silent t call _ hnone := by
    rcases t.step_transfer_cases call with ⟨hsame, _⟩ | ⟨e, _, _, hevent⟩
    · exact hsame
    · cases hnone.symm.trans hevent
  event t call e _ hsome := by
    rcases t.step_transfer_cases call with ⟨_, hnone⟩ | ⟨e', hcovered, hreplay, hevent⟩
    · cases hnone.symm.trans hsome
    · obtain rfl := Option.some.inj (hevent.symm.trans hsome)
      exact ⟨hcovered, hreplay⟩
  complete _ _ h hcovered := exists_call_of_covered h hcovered

/-- The transfers of a run of the contract that `deployer` made. -/
abbrev transfers (deployer : Address) (calls : List Call) : List Transfer :=
  EventLog.events step Receipt.transferred (construct deployer) calls

theorem balances_construct (deployer : Address) :
    (construct deployer).balances = (Transfer.minted deployer).replay fun _ => 0 := by
  have hbalances : (construct deployer).balances =
      Function.update (fun _ => 0) deployer (construct deployer).totalSupply.toNat :=
    balances_setBalance ⟨_, fun _ => 0, fun _ _ => 0⟩ deployer _
  rw [hbalances, Transfer.replay, Transfer.minted, Ledger.move]
  simp

/-- The balances after any run are what the logged transfers, with the one of
the constructor, make of empty accounts; and the logs of the runs are exactly
the lists of transfers that avoid the zero address and never take more than the
transfers before them have left. -/
theorem transfer_log_exact (deployer : Address) :
    (∀ calls, (Machine.final step (construct deployer) calls).balances =
      (Transfer.minted deployer :: transfers deployer calls).foldl
        (fun balances e => e.replay balances) fun _ => 0) ∧
    ∀ log, (∃ calls, transfers deployer calls = log) ↔
      Machine.Legal (fun balances e => Transfer.Covered balances e)
        (fun balances e => e.replay balances) (construct deployer).balances log := by
  constructor
  · intro calls
    rw [List.foldl_cons, ← balances_construct]
    exact (sourced deployer).view_final (sound_construct deployer) calls
  · intro log
    exact (sourced deployer).log_iff (sound_construct deployer)

end IndieWeb2Token

end CivicConnect.Contracts
