import CivicConnect.Contracts.Erc20
import CivicConnect.Library.EventLog

/-!
# The registry contract

An owner sets records and may hand over the contract. Everything that happens is
logged, and the log says as much as the storage does.
-/

namespace CivicConnect.Contracts

/-- A value of the type `String[128]`. -/
abbrev Text128 := {text : String // text.utf8ByteSize ≤ 128}

inductive RegistryEvent where
  | recordSet (addr : Address) (record : Text128)
  | ownershipTransferred (previousOwner newOwner : Address)
  deriving DecidableEq

structure Registry where
  owner : Address
  records : Address → Text128

inductive RegistryFunction where
  | setRecord (addr : Address) (record : String)
  | transferOwnership (newOwner : Address)
  | getRecord (addr : Address)
  deriving DecidableEq

structure RegistryCall where
  sender : Address
  function : RegistryFunction
  deriving DecidableEq

inductive RegistryOutcome where
  | logged (event : RegistryEvent)
  | returned (record : Text128)
  deriving DecidableEq

/-- A call with what it did. -/
structure RegistryReceipt where
  call : RegistryCall
  result : Except Revert RegistryOutcome

/-- An argument that is too long for its type reverts without a reason. -/
def toText128 (text : String) : Except Revert Text128 :=
  if h : text.utf8ByteSize ≤ 128 then .ok ⟨text, h⟩ else .error (.require "")

namespace Registry

def construct (sender : Address) : Registry where
  owner := sender
  records _ := ⟨"", by decide⟩

def setRecord (r : Registry) (sender addr : Address) (record : String) :
    Except Revert (Registry × RegistryOutcome) := do
  let record ← toText128 record
  require (sender = r.owner) "Only owner"
  return ({ r with records := Function.update r.records addr record },
    .logged (.recordSet addr record))

def transferOwnership (r : Registry) (sender newOwner : Address) :
    Except Revert (Registry × RegistryOutcome) := do
  require (sender = r.owner) "Only owner"
  require (newOwner ≠ zeroAddress) "Zero address"
  return ({ r with owner := newOwner }, .logged (.ownershipTransferred r.owner newOwner))

def getRecord (r : Registry) (addr : Address) : Except Revert (Registry × RegistryOutcome) :=
  .ok (r, .returned (r.records addr))

def run (r : Registry) (call : RegistryCall) : Except Revert (Registry × RegistryOutcome) :=
  match call.function with
  | .setRecord addr record => r.setRecord call.sender addr record
  | .transferOwnership newOwner => r.transferOwnership call.sender newOwner
  | .getRecord addr => r.getRecord addr

def step (r : Registry) (call : RegistryCall) : Registry × RegistryReceipt :=
  match r.run call with
  | .ok (r, outcome) => (r, ⟨call, .ok outcome⟩)
  | .error err => (r, ⟨call, .error err⟩)

end Registry

def RegistryReceipt.event (receipt : RegistryReceipt) : Option RegistryEvent :=
  match receipt.result with
  | .ok (.logged event) => some event
  | _ => none

namespace Registry

/-- What a reader of the log makes of an event. -/
def replay (r : Registry) : RegistryEvent → Registry
  | .recordSet addr record => { r with records := Function.update r.records addr record }
  | .ownershipTransferred _ newOwner => { r with owner := newOwner }

/-- What the reader expects of an event. -/
def Expects (r : Registry) : RegistryEvent → Prop
  | .recordSet _ _ => True
  | .ownershipTransferred previousOwner newOwner =>
      previousOwner = r.owner ∧ newOwner ≠ zeroAddress

variable {r r' : Registry} {sender addr newOwner : Address} {outcome : RegistryOutcome}

theorem setRecord_ok_iff {record : String} :
    r.setRecord sender addr record = .ok (r', outcome) ↔
      sender = r.owner ∧ ∃ text : Text128, text.val = record ∧
        r' = r.replay (.recordSet addr text) ∧ outcome = .logged (.recordSet addr text) := by
  rw [setRecord, Except.bind_ok_iff]
  constructor
  · rintro ⟨text, htext, h⟩
    obtain ⟨_, howner, h⟩ := Except.bind_ok_iff.mp h
    obtain ⟨rfl, rfl⟩ := Prod.mk.inj (Except.ok.inj h)
    rw [toText128] at htext
    split at htext
    · obtain rfl := Except.ok.inj htext
      exact ⟨require_ok_iff.mp howner, _, rfl, rfl, rfl⟩
    · cases htext
  · rintro ⟨howner, text, rfl, rfl, rfl⟩
    refine ⟨text, dif_pos text.property, ?_⟩
    exact Except.bind_ok_iff.mpr ⟨(), require_ok_iff.mpr howner, rfl⟩

theorem transferOwnership_ok_iff :
    r.transferOwnership sender newOwner = .ok (r', outcome) ↔
      sender = r.owner ∧ newOwner ≠ zeroAddress ∧
        r' = r.replay (.ownershipTransferred r.owner newOwner) ∧
        outcome = .logged (.ownershipTransferred r.owner newOwner) := by
  rw [transferOwnership, Except.bind_ok_iff]
  constructor
  · rintro ⟨_, howner, h⟩
    obtain ⟨_, hzero, h⟩ := Except.bind_ok_iff.mp h
    obtain ⟨rfl, rfl⟩ := Prod.mk.inj (Except.ok.inj h)
    exact ⟨require_ok_iff.mp howner, require_ok_iff.mp hzero, rfl, rfl⟩
  · rintro ⟨howner, hzero, rfl, rfl⟩
    refine ⟨(), require_ok_iff.mpr howner, ?_⟩
    exact Except.bind_ok_iff.mpr ⟨(), require_ok_iff.mpr hzero, rfl⟩

/-- Everything that a call can do: nothing that is logged, or, by the owner, one
event that a reader expects. -/
theorem step_cases (r : Registry) (call : RegistryCall) :
    ((r.step call).1 = r ∧ (r.step call).2.event = none) ∨
      ∃ event, call.sender = r.owner ∧ r.Expects event ∧ (r.step call).1 = r.replay event ∧
        (r.step call).2.event = some event := by
  rw [step]
  cases hrun : r.run call with
  | error err => exact Or.inl ⟨rfl, rfl⟩
  | ok result =>
      obtain ⟨r', outcome⟩ := result
      obtain ⟨sender, function⟩ := call
      cases function with
      | setRecord addr record =>
          obtain ⟨howner, text, _, rfl, rfl⟩ := setRecord_ok_iff.mp hrun
          exact Or.inr ⟨.recordSet addr text, howner, trivial, rfl, rfl⟩
      | transferOwnership newOwner =>
          obtain ⟨howner, hzero, rfl, rfl⟩ := transferOwnership_ok_iff.mp hrun
          exact Or.inr ⟨.ownershipTransferred r.owner newOwner, howner, ⟨rfl, hzero⟩, rfl, rfl⟩
      | getRecord addr =>
          obtain ⟨rfl, rfl⟩ := Prod.mk.inj (Except.ok.inj hrun)
          exact Or.inl ⟨rfl, rfl⟩

theorem exists_call_of_expects {event : RegistryEvent} (h : r.Expects event) :
    ∃ call, (r.step call).2.event = some event := by
  cases event with
  | recordSet addr text =>
      refine ⟨⟨r.owner, .setRecord addr text.val⟩, ?_⟩
      have hrun : r.run ⟨r.owner, .setRecord addr text.val⟩ =
          .ok (r.replay (.recordSet addr text), .logged (.recordSet addr text)) :=
        setRecord_ok_iff.mpr ⟨rfl, text, rfl, rfl, rfl⟩
      rw [step, hrun]
      rfl
  | ownershipTransferred previousOwner newOwner =>
      obtain ⟨rfl, hzero⟩ := h
      refine ⟨⟨r.owner, .transferOwnership newOwner⟩, ?_⟩
      have hrun : r.run ⟨r.owner, .transferOwnership newOwner⟩ =
          .ok (r.replay (.ownershipTransferred r.owner newOwner),
            .logged (.ownershipTransferred r.owner newOwner)) :=
        transferOwnership_ok_iff.mpr ⟨rfl, hzero, rfl, rfl⟩
      rw [step, hrun]
      rfl

theorem sourced : EventLog.Sourced step RegistryReceipt.event id replay Expects fun _ => True where
  keep _ _ _ := trivial
  silent r call _ hnone := by
    rcases r.step_cases call with ⟨hsame, _⟩ | ⟨event, _, _, _, hevent⟩
    · exact hsame
    · cases hnone.symm.trans hevent
  event r call e _ hsome := by
    rcases r.step_cases call with ⟨_, hnone⟩ | ⟨event, _, hexpects, hreplay, hevent⟩
    · cases hnone.symm.trans hsome
    · obtain rfl := Option.some.inj (hevent.symm.trans hsome)
      exact ⟨hexpects, hreplay⟩
  complete _ _ _ hexpects := exists_call_of_expects hexpects

/-- The log of a deployed registry. -/
abbrev logged (deployer : Address) (calls : List RegistryCall) : List RegistryEvent :=
  EventLog.events step RegistryReceipt.event (construct deployer) calls

/-- The storage after any run is the replay of the log; the logs are exactly the
chains of events in which each transfer of ownership starts from the owner that
the events before it lead to, and does not end at zero; and in every state that
is reached a call that is not the owner's changes nothing and logs nothing. -/
theorem registry_log_exact (deployer : Address) :
    (∀ calls, Machine.final step (construct deployer) calls =
      (logged deployer calls).foldl replay (construct deployer)) ∧
    (∀ log, (∃ calls, logged deployer calls = log) ↔
      Machine.Legal Expects replay (construct deployer) log) ∧
    ∀ calls call, call.sender ≠ (Machine.final step (construct deployer) calls).owner →
      logged deployer (calls ++ [call]) = logged deployer calls ∧
        Machine.final step (construct deployer) (calls ++ [call]) =
          Machine.final step (construct deployer) calls := by
  refine ⟨fun calls => sourced.view_final trivial calls, fun log => sourced.log_iff trivial, ?_⟩
  intro calls call hsender
  rcases (Machine.final step (construct deployer) calls).step_cases call with
    ⟨hsame, hnone⟩ | ⟨event, howner, _⟩
  · constructor
    · rw [logged, EventLog.events, Machine.trace_append, List.filterMap_append]
      rw [Machine.trace_cons, List.filterMap_cons_none hnone]
      exact List.append_nil _
    · rw [Machine.final_append]
      exact hsame
  · exact absurd howner hsender

/-- The second owner sets a record, and after that the first one cannot. -/
theorem registry_log_exact_handover :
    (∃ calls, logged 1 calls =
      [.recordSet 7 ⟨"first", by decide⟩, .ownershipTransferred 1 2,
        .recordSet 7 ⟨"second", by decide⟩]) ∧
    logged 1 ([⟨1, .transferOwnership 2⟩] ++ [⟨1, .setRecord 7 "late"⟩]) =
      logged 1 [⟨1, .transferOwnership 2⟩] :=
  ⟨((registry_log_exact 1).2.1 _).mpr ⟨trivial, ⟨rfl, by decide⟩, trivial, trivial⟩,
    ((registry_log_exact 1).2.2 [⟨1, .transferOwnership 2⟩] ⟨1, .setRecord 7 "late"⟩
      (by decide)).1⟩

end Registry

end CivicConnect.Contracts
