import CivicConnect.Library.Ledger
import CivicConnect.Library.Machine
import CivicConnect.Library.PrefixCode

/-!
# The token contract

A call runs its body on the storage of the contract; a body that reverts leaves
the storage as it was. The subtractions and additions of the bodies are checked.
-/

namespace CivicConnect.Contracts

abbrev Address := Fin (2 ^ 160)

abbrev Uint256 := BitVec 256

/-- The address that Solidity writes `address(0)` and Vyper `empty(address)`. -/
def zeroAddress : Address := ⟨0, by decide⟩

inductive Revert where
  | require (message : String)
  | panic
  deriving DecidableEq, Repr

inductive Event where
  | transfer (src dst : Address) (value : Uint256)
  | approval (owner spender : Address) (value : Uint256)
  deriving DecidableEq

def require (condition : Prop) [Decidable condition] (message : String) : Except Revert Unit :=
  if condition then .ok () else .error (.require message)

/-- Subtraction and addition revert when the result is out of range. -/
def checkedSub (a b : Uint256) : Except Revert Uint256 :=
  if b ≤ a then .ok (a - b) else .error .panic

def checkedAdd (a b : Uint256) : Except Revert Uint256 :=
  if a.toNat + b.toNat < 2 ^ 256 then .ok (a + b) else .error .panic

structure IndieWeb2Token where
  totalSupply : Uint256
  balanceOf : Address → Uint256
  allowance : Address → Address → Uint256

inductive Function where
  | transfer (dst : Address) (value : Uint256)
  | approve (spender : Address) (value : Uint256)
  | transferFrom (src dst : Address) (value : Uint256)
  deriving DecidableEq

structure Call where
  sender : Address
  function : Function
  deriving DecidableEq

namespace IndieWeb2Token

def construct (sender : Address) : IndieWeb2Token :=
  let totalSupply : Uint256 := .ofNat 256 (1000000 * 10 ^ 18)
  { totalSupply := totalSupply
    balanceOf := Function.update (fun _ => 0) sender totalSupply
    allowance := fun _ _ => 0 }

def setBalance (t : IndieWeb2Token) (a : Address) (value : Uint256) : IndieWeb2Token :=
  { t with balanceOf := Function.update t.balanceOf a value }

def setAllowance (t : IndieWeb2Token) (owner spender : Address) (value : Uint256) :
    IndieWeb2Token :=
  { t with allowance :=
      Function.update t.allowance owner (Function.update (t.allowance owner) spender value) }

/-- `balanceOf[a] -= value`. -/
def debit (t : IndieWeb2Token) (a : Address) (value : Uint256) :
    Except Revert IndieWeb2Token := do
  let balance ← checkedSub (t.balanceOf a) value
  return t.setBalance a balance

/-- `balanceOf[a] += value`. -/
def credit (t : IndieWeb2Token) (a : Address) (value : Uint256) :
    Except Revert IndieWeb2Token := do
  let balance ← checkedAdd (t.balanceOf a) value
  return t.setBalance a balance

def transfer (t : IndieWeb2Token) (sender dst : Address) (value : Uint256) :
    Except Revert (IndieWeb2Token × Event) := do
  require (dst ≠ 0) "Transfer to zero address"
  require (t.balanceOf sender ≥ value) "Insufficient balance"
  let t ← t.debit sender value
  let t ← t.credit dst value
  return (t, .transfer sender dst value)

def approve (t : IndieWeb2Token) (sender spender : Address) (value : Uint256) :
    Except Revert (IndieWeb2Token × Event) :=
  .ok (t.setAllowance sender spender value, .approval sender spender value)

def transferFrom (t : IndieWeb2Token) (sender src dst : Address) (value : Uint256) :
    Except Revert (IndieWeb2Token × Event) := do
  require (dst ≠ 0) "Transfer to zero address"
  require (t.balanceOf src ≥ value) "Insufficient balance"
  require (t.allowance src sender ≥ value) "Allowance exceeded"
  let t ← t.debit src value
  let t ← t.credit dst value
  let allowed ← checkedSub (t.allowance src sender) value
  return (t.setAllowance src sender allowed, .transfer src dst value)

def run (t : IndieWeb2Token) (call : Call) : Except Revert (IndieWeb2Token × Event) :=
  match call.function with
  | .transfer dst value => t.transfer call.sender dst value
  | .approve spender value => t.approve call.sender spender value
  | .transferFrom src dst value => t.transferFrom call.sender src dst value

end IndieWeb2Token

/-- A call with what it did. -/
structure Receipt where
  call : Call
  result : Except Revert Event

namespace IndieWeb2Token

def step (t : IndieWeb2Token) (call : Call) : IndieWeb2Token × Receipt :=
  match t.run call with
  | .ok (t, event) => (t, ⟨call, .ok event⟩)
  | .error err => (t, ⟨call, .error err⟩)

/-- The balances as numbers. -/
def balances (t : IndieWeb2Token) (a : Address) : ℕ := (t.balanceOf a).toNat

/-- The storage after a move: only the balances have changed. -/
structure Moves (t t' : IndieWeb2Token) (src dst : Address) (value : Uint256) : Prop where
  totalSupply : t'.totalSupply = t.totalSupply
  allowance : t'.allowance = t.allowance
  balances : t'.balances = Ledger.move t.balances src dst value.toNat

end IndieWeb2Token

theorem require_ok_iff {condition : Prop} [Decidable condition] {message : String} {u : Unit} :
    require condition message = .ok u ↔ condition := by
  rw [require]
  split
  · next h => exact iff_of_true rfl h
  · next h => exact iff_of_false nofun h

theorem require_ne_panic {condition : Prop} [Decidable condition] {message : String} :
    require condition message ≠ .error .panic := by
  rw [require]
  split
  · nofun
  · nofun

theorem checkedSub_ok_iff {a b c : Uint256} :
    checkedSub a b = .ok c ↔ b ≤ a ∧ c = a - b := by
  rw [checkedSub]
  split
  · next h => simp [h, eq_comm]
  · next h => simp [h]

theorem checkedAdd_ok_iff {a b c : Uint256} :
    checkedAdd a b = .ok c ↔ a.toNat + b.toNat < 2 ^ 256 ∧ c = a + b := by
  rw [checkedAdd]
  split
  · next h =>
      exact ⟨fun heq => ⟨h, (Except.ok.inj heq).symm⟩, fun heq => congrArg _ heq.2.symm⟩
  · next h => exact iff_of_false nofun fun heq => h heq.1

namespace IndieWeb2Token

variable {t t' t'' : IndieWeb2Token} {a src dst sender owner spender : Address} {value : Uint256}
  {event : Event}

theorem balances_setBalance (t : IndieWeb2Token) (a : Address) (value : Uint256) :
    (t.setBalance a value).balances = Function.update t.balances a value.toNat := by
  funext b
  simp only [balances, setBalance, Function.update_apply]
  split_ifs <;> rfl

theorem debit_ok_iff : t.debit a value = .ok t' ↔
    value ≤ t.balanceOf a ∧ t' = t.setBalance a (t.balanceOf a - value) := by
  rw [debit, Except.bind_ok_iff]
  constructor
  · rintro ⟨balance, hsub, heq⟩
    obtain ⟨hle, rfl⟩ := checkedSub_ok_iff.mp hsub
    exact ⟨hle, (Except.ok.inj heq).symm⟩
  · rintro ⟨hle, rfl⟩
    exact ⟨_, checkedSub_ok_iff.mpr ⟨hle, rfl⟩, rfl⟩

theorem credit_ok_iff : t.credit a value = .ok t' ↔
    t.balances a + value.toNat < 2 ^ 256 ∧ t' = t.setBalance a (t.balanceOf a + value) := by
  rw [credit, Except.bind_ok_iff]
  constructor
  · rintro ⟨balance, hadd, heq⟩
    obtain ⟨hlt, rfl⟩ := checkedAdd_ok_iff.mp hadd
    exact ⟨hlt, (Except.ok.inj heq).symm⟩
  · rintro ⟨hlt, rfl⟩
    exact ⟨_, checkedAdd_ok_iff.mpr ⟨hlt, rfl⟩, rfl⟩

theorem balances_debit (h : t.debit src value = .ok t') : t'.balances =
    Function.update t.balances src (t.balances src - value.toNat) := by
  obtain ⟨hle, rfl⟩ := debit_ok_iff.mp h
  rw [balances_setBalance, BitVec.toNat_sub_of_le hle]
  rfl

/-- A debit and a credit are a move of the ledger. -/
theorem moves_of_ok (hdebit : t.debit src value = .ok t')
    (hcredit : t'.credit dst value = .ok t'') : t.Moves t'' src dst value := by
  have hbalances := balances_debit hdebit
  obtain ⟨_, rfl⟩ := debit_ok_iff.mp hdebit
  obtain ⟨hlt, rfl⟩ := credit_ok_iff.mp hcredit
  refine ⟨rfl, rfl, ?_⟩
  rw [balances_setBalance, BitVec.toNat_add_of_lt hlt, Ledger.move, ← hbalances]
  rfl

theorem transfer_ok (h : t.transfer sender dst value = .ok (t', event)) :
    dst ≠ 0 ∧ value ≤ t.balanceOf sender ∧ t.Moves t' sender dst value := by
  obtain ⟨_, hdst, h⟩ := Except.bind_ok_iff.mp h
  obtain ⟨_, hbalance, h⟩ := Except.bind_ok_iff.mp h
  obtain ⟨debited, hdebit, h⟩ := Except.bind_ok_iff.mp h
  obtain ⟨credited, hcredit, h⟩ := Except.bind_ok_iff.mp h
  obtain ⟨rfl, _⟩ := Prod.mk.inj (Except.ok.inj h)
  exact ⟨require_ok_iff.mp hdst, require_ok_iff.mp hbalance, moves_of_ok hdebit hcredit⟩

theorem transferFrom_ok (h : t.transferFrom sender src dst value = .ok (t', event)) :
    dst ≠ 0 ∧ value ≤ t.balanceOf src ∧ value ≤ t.allowance src sender ∧
      ∃ moved, t.Moves moved src dst value ∧
        t' = moved.setAllowance src sender (t.allowance src sender - value) := by
  obtain ⟨_, hdst, h⟩ := Except.bind_ok_iff.mp h
  obtain ⟨_, hbalance, h⟩ := Except.bind_ok_iff.mp h
  obtain ⟨_, hallowance, h⟩ := Except.bind_ok_iff.mp h
  obtain ⟨debited, hdebit, h⟩ := Except.bind_ok_iff.mp h
  obtain ⟨credited, hcredit, h⟩ := Except.bind_ok_iff.mp h
  obtain ⟨allowed, hallowed, h⟩ := Except.bind_ok_iff.mp h
  have hmoves := moves_of_ok hdebit hcredit
  rw [hmoves.allowance] at hallowed
  obtain ⟨_, rfl⟩ := checkedSub_ok_iff.mp hallowed
  obtain ⟨rfl, _⟩ := Prod.mk.inj (Except.ok.inj h)
  exact ⟨require_ok_iff.mp hdst, require_ok_iff.mp hbalance, require_ok_iff.mp hallowance,
    credited, hmoves, rfl⟩

/-- Everything that a call can do: it reverts and leaves the storage alone, or
it passes its checks and writes. -/
inductive Steps (t : IndieWeb2Token) : Call → IndieWeb2Token × Receipt → Prop where
  | revert (call : Call) (err : Revert) : Steps t call (t, ⟨call, .error err⟩)
  | transfer (sender dst : Address) (value : Uint256) (event : Event) (t' : IndieWeb2Token)
      (hdst : dst ≠ 0) (hbalance : value ≤ t.balanceOf sender)
      (hmoves : t.Moves t' sender dst value) :
      Steps t ⟨sender, .transfer dst value⟩ (t', ⟨⟨sender, .transfer dst value⟩, .ok event⟩)
  | approve (sender spender : Address) (value : Uint256) (event : Event) :
      Steps t ⟨sender, .approve spender value⟩
        (t.setAllowance sender spender value, ⟨⟨sender, .approve spender value⟩, .ok event⟩)
  | transferFrom (sender src dst : Address) (value : Uint256) (event : Event)
      (moved : IndieWeb2Token) (hdst : dst ≠ 0) (hbalance : value ≤ t.balanceOf src)
      (hallowance : value ≤ t.allowance src sender) (hmoves : t.Moves moved src dst value) :
      Steps t ⟨sender, .transferFrom src dst value⟩
        (moved.setAllowance src sender (t.allowance src sender - value),
          ⟨⟨sender, .transferFrom src dst value⟩, .ok event⟩)

theorem steps (t : IndieWeb2Token) (call : Call) : Steps t call (t.step call) := by
  rw [step]
  cases hrun : t.run call with
  | error err => exact .revert call err
  | ok result =>
      obtain ⟨t', event⟩ := result
      obtain ⟨sender, function⟩ := call
      cases function with
      | transfer dst value =>
          obtain ⟨hdst, hbalance, hmoves⟩ := transfer_ok hrun
          exact .transfer sender dst value event t' hdst hbalance hmoves
      | approve spender value =>
          obtain ⟨rfl, _⟩ := Prod.mk.inj (Except.ok.inj hrun)
          exact .approve sender spender value event
      | transferFrom src dst value =>
          obtain ⟨hdst, hbalance, hallowance, moved, hmoves, rfl⟩ := transferFrom_ok hrun
          exact .transferFrom sender src dst value event moved hdst hbalance hallowance hmoves

/-- The invariant of a run of the contract that `deployer` made. -/
structure Sound (deployer : Address) (t : IndieWeb2Token) : Prop where
  totalSupply : t.totalSupply = (construct deployer).totalSupply
  sum : ∑ a, t.balances a = t.totalSupply.toNat
  zero : deployer ≠ 0 → t.balances 0 = 0

variable {deployer : Address}

theorem sound_construct (deployer : Address) : Sound deployer (construct deployer) where
  totalSupply := rfl
  sum := by
    have hbalances : (construct deployer).balances =
        Function.update (fun _ => 0) deployer (construct deployer).totalSupply.toNat :=
      balances_setBalance ⟨_, fun _ => 0, fun _ _ => 0⟩ deployer _
    have hsum := Ledger.sum_update_add (fun _ => 0) deployer
      (construct deployer).totalSupply.toNat
    rw [hbalances]
    simpa using hsum
  zero hdeployer := by
    simp [balances, construct, Function.update_of_ne hdeployer.symm]

theorem Sound.moves (h : Sound deployer t) (hdst : dst ≠ 0) (hbalance : value ≤ t.balanceOf src)
    (hmoves : t.Moves t' src dst value) : Sound deployer t' where
  totalSupply := hmoves.totalSupply.trans h.totalSupply
  sum := by
    have hheld : value.toNat ≤ t.balances src := hbalance
    rw [hmoves.balances, Ledger.sum_move hheld, h.sum, hmoves.totalSupply]
  zero hdeployer := by
    have hle : t'.balances 0 ≤ t.balances 0 := by
      rw [hmoves.balances]
      exact Ledger.move_le_of_ne hdst.symm
    rw [h.zero hdeployer] at hle
    exact Nat.le_zero.mp hle

/-- Every call keeps the invariant. -/
theorem Sound.step (h : Sound deployer t) (call : Call) : Sound deployer (t.step call).1 := by
  have hsteps := steps t call
  generalize t.step call = outcome at hsteps ⊢
  cases hsteps with
  | revert call err => exact h
  | transfer sender dst value event t' hdst hbalance hmoves => exact h.moves hdst hbalance hmoves
  | approve sender spender value event => exact ⟨h.totalSupply, h.sum, h.zero⟩
  | transferFrom sender src dst value event moved hdst hbalance hallowance hmoves =>
      have hmoved := h.moves hdst hbalance hmoves
      exact ⟨hmoved.totalSupply, hmoved.sum, hmoved.zero⟩

/-- The credit cannot overflow, since the sum of all balances does not. -/
theorem Sound.exists_move (h : Sound deployer t) (hbalance : value ≤ t.balanceOf src)
    (dst : Address) : ∃ debited credited,
      t.debit src value = .ok debited ∧ debited.credit dst value = .ok credited := by
  have hdebit := debit_ok_iff.mpr ⟨hbalance, rfl⟩
  have hheld : value.toNat ≤ t.balances src := hbalance
  have hcredit := Ledger.credit_le_sum hheld dst
  rw [h.sum] at hcredit
  refine ⟨_, _, hdebit, credit_ok_iff.mpr ⟨?_, rfl⟩⟩
  rw [balances_debit hdebit]
  exact hcredit.trans_lt t.totalSupply.isLt

/-- The move of a body cannot panic, whatever the body goes on to do. -/
theorem Sound.move_ne_panic {α : Type} {rest : IndieWeb2Token → Except Revert α}
    (h : Sound deployer t) (hbalance : value ≤ t.balanceOf src)
    (hrest : ∀ moved, t.Moves moved src dst value → rest moved ≠ .error .panic) :
    (do let t ← t.debit src value; let t ← t.credit dst value; rest t) ≠ .error .panic := by
  obtain ⟨debited, credited, hdebit, hcredit⟩ := h.exists_move hbalance dst
  rw [hdebit]
  change (do let t ← debited.credit dst value; rest t) ≠ _
  rw [hcredit]
  exact hrest credited (moves_of_ok hdebit hcredit)

/-- No checked operation of a body is out of range: a body reverts at its
requirements only. -/
theorem Sound.no_panic (h : Sound deployer t) (call : Call) : t.run call ≠ .error .panic := by
  obtain ⟨sender, function⟩ := call
  cases function with
  | transfer dst value =>
      apply Except.bind_ne_error require_ne_panic
      intro _ _
      apply Except.bind_ne_error require_ne_panic
      intro _ hbalance
      apply h.move_ne_panic (require_ok_iff.mp hbalance)
      nofun
  | approve spender value => nofun
  | transferFrom src dst value =>
      apply Except.bind_ne_error require_ne_panic
      intro _ _
      apply Except.bind_ne_error require_ne_panic
      intro _ hbalance
      apply Except.bind_ne_error require_ne_panic
      intro _ hallowance
      apply h.move_ne_panic (require_ok_iff.mp hbalance)
      intro moved hmoves
      have hallowed := require_ok_iff.mp hallowance
      rw [← hmoves.allowance] at hallowed
      rw [checkedSub, if_pos hallowed]
      nofun

theorem sound_final (deployer : Address) (calls : List Call) :
    Sound deployer (Machine.final step (construct deployer) calls) :=
  Machine.invariant_final (fun call _ _ h => h.step call) (sound_construct deployer)

/-- A call that reverts has changed nothing. -/
theorem step_of_error {call : Call} {err : Revert} (h : (t.step call).2.result = .error err) :
    (t.step call).1 = t := by
  have hsteps := steps t call
  generalize t.step call = outcome at hsteps h ⊢
  cases hsteps with
  | revert call err => rfl
  | transfer sender dst value event t' hdst hbalance hmoves => cases h
  | approve sender spender value event => cases h
  | transferFrom sender src dst value event moved hdst hbalance hallowance hmoves => cases h

/-- In every state of a run the balances sum to the supply, which is the one of
the constructor, and a further call cannot panic. -/
theorem supply_conserved (deployer : Address) (calls : List Call) :
    let t := Machine.final step (construct deployer) calls
    ∑ a, (t.balanceOf a).toNat = t.totalSupply.toNat ∧
      t.totalSupply = (construct deployer).totalSupply ∧
      (deployer ≠ 0 → t.balanceOf 0 = 0) ∧
      ∀ call, t.run call ≠ .error .panic ∧
        ∀ err, (t.step call).2.result = .error err → (t.step call).1 = t := by
  intro t
  have hsound := sound_final deployer calls
  refine ⟨hsound.sum, hsound.totalSupply, ?_, ?_⟩
  · intro hdeployer
    exact BitVec.eq_of_toNat_eq (hsound.zero hdeployer)
  · intro call
    exact ⟨hsound.no_panic call, fun err herr => step_of_error herr⟩

/-- A run with a move to the mover itself, a transfer of nothing, an allowance
that is used up and a transfer of too much. -/
theorem supply_conserved_sample :
    let calls : List Call := [⟨1, .transfer 1 5⟩, ⟨1, .transfer 2 7⟩, ⟨2, .transfer 1 0⟩,
      ⟨2, .approve 3 (BitVec.allOnes 256)⟩, ⟨3, .transferFrom 2 3 7⟩, ⟨3, .transferFrom 2 3 1⟩]
    (1 : Address) ≠ 0 ∧
      (Machine.final step (construct 1) calls).balanceOf 0 = 0 ∧
      ((Machine.final step (construct 1) calls).step
        ⟨2, .transfer 1 1⟩).1 = Machine.final step (construct 1) calls :=
  have hdeployer : (1 : Address) ≠ 0 := by decide
  have h := supply_conserved 1 _
  ⟨hdeployer, h.2.2.1 hdeployer, (h.2.2.2 ⟨2, .transfer 1 1⟩).2 (.require "Insufficient balance")
    rfl⟩

end IndieWeb2Token

end CivicConnect.Contracts
