import CivicConnect.GraphqlDns.PolicyRuns
import Mathlib.Logic.Relation

/-!
# Atomic and local calls of the enforcer

A call that fails leaves the enforcer as it was. A call that succeeds stores
one proposal and returns what it stored; a proposal that was stored before
advances by one approval or one move of its status.
-/

namespace CivicConnect.GraphqlDns

inductive ProposalStatus.Moves : ProposalStatus → ProposalStatus → Prop where
  | approve : Moves .pending .approved
  | execute : Moves .approved .executed
  | release : Moves .timelockActive .executed

/-- What a call may change of a stored proposal. -/
structure MutationProposal.Advances (old new : MutationProposal) : Prop where
  id : new.id = old.id
  mutationName : new.mutationName = old.mutationName
  proposer : new.proposer = old.proposer
  proposedAt : new.proposedAt = old.proposedAt
  timelockUntil : new.timelockUntil = old.timelockUntil
  requiredApprovals : new.requiredApprovals = old.requiredApprovals
  payload : new.payload = old.payload
  approvals : new.approvals = old.approvals ∨
    ∃ approver ∉ old.approvals, new.approvals = old.approvals ++ [approver]
  status : new.status = old.status ∨ old.status.Moves new.status

/-- The identifier of the proposal that a call is about. -/
def EnforcerEvent.target (ev : EnforcerEvent) : String :=
  match ev.call with
  | .propose _ _ _ uuid => uuid
  | .approve proposalId _ => proposalId
  | .execute proposalId => proposalId

namespace PolicyEnforcer

variable {e : PolicyEnforcer} {ev : EnforcerEvent} {id : String} {old p : MutationProposal}

theorem withApproval_advances {approver : String} (hnew : approver ∉ old.approvals) :
    old.Advances (withApproval old approver) := by
  rw [withApproval]
  dsimp only
  split
  · next hpending =>
      constructor
      case approvals => exact .inr ⟨approver, hnew, rfl⟩
      case status =>
        right
        rw [hpending.2]
        exact .approve
      all_goals rfl
  · constructor
    case approvals => exact .inr ⟨approver, hnew, rfl⟩
    case status => exact .inl rfl
    all_goals rfl

theorem executed_advances (hstatus : old.status = .approved ∨ old.status = .timelockActive) :
    old.Advances { old with status := .executed } := by
  constructor
  case approvals => exact .inl rfl
  case status =>
    right
    rcases hstatus with hstatus | hstatus <;> rw [hstatus]
    · exact .execute
    · exact .release
  all_goals rfl

theorem executed_ne (hstatus : old.status = .approved ∨ old.status = .timelockActive) :
    { old with status := .executed } ≠ old := by
  intro hsame
  have hdone : ProposalStatus.executed = old.status :=
    congrArg MutationProposal.status hsame
  rw [← hdone] at hstatus
  rcases hstatus with hstatus | hstatus <;> cases hstatus

/-- What a successful call leaves behind. -/
structure StoresOne (e e' : PolicyEnforcer) (id : String) (p : MutationProposal) : Prop where
  policy : e'.policy = e.policy
  stored : e'.getProposal id = some p
  changed : e.getProposal id ≠ some p
  frame : ∀ id' ≠ id, e'.getProposal id' = e.getProposal id'
  added : e.getProposal id = none → p.id = id
  advanced : ∀ old, e.getProposal id = some old → old.Advances p

theorem put_storesOne (e : PolicyEnforcer) (hchanged : e.getProposal id ≠ some p)
    (hadded : e.getProposal id = none → p.id = id)
    (hadvanced : ∀ old, e.getProposal id = some old → old.Advances p) :
    StoresOne e (e.put id p).1 id p where
  policy := rfl
  stored := KeyedMap.get_set_self _ _ _
  changed := hchanged
  frame _ hne := KeyedMap.get_set_ne _ _ hne
  added := hadded
  advanced := hadvanced

theorem put_storesOne_of_get (hget : e.getProposal id = some old) (hne : p ≠ old)
    (hadvances : old.Advances p) : StoresOne e (e.put id p).1 id p := by
  apply put_storesOne
  · intro hsame
    exact hne (Option.some.inj (hsame.symm.trans hget))
  · intro hnone
    rw [hget] at hnone
    cases hnone
  · intro old' hget'
    obtain rfl := Option.some.inj (hget.symm.trans hget')
    exact hadvances

theorem perform_storesOne (hfresh : ∀ id ∈ ev.uuid, e.getProposal id = none)
    (hok : (e.perform ev).2 = .ok p) : StoresOne e (e.perform ev).1 ev.target p := by
  have hperforms := performs e ev
  generalize e.perform ev = outcome at hperforms hok ⊢
  cases hperforms with
  | fail ev err => cases hok
  | propose now mutationName proposer uuid payload entry hprivilege hentry hnow =>
      obtain rfl := Except.ok.inj hok
      have hnone : e.getProposal uuid = none := hfresh uuid rfl
      apply put_storesOne
      · intro hsome
        cases hnone.symm.trans hsome
      · intro _
        rfl
      · intro old hget
        cases hnone.symm.trans hget
  | approve now proposalId approver old hget hprivilege hnew =>
      obtain rfl := Except.ok.inj hok
      exact put_storesOne_of_get hget (withApproval_ne _ _) (withApproval_advances hnew)
  | execute now proposalId old hget hstatus =>
      obtain rfl := Except.ok.inj hok
      exact put_storesOne_of_get hget (executed_ne hstatus) (executed_advances hstatus)

theorem perform_error {err : PolicyError} (herr : (e.perform ev).2 = .error err) :
    (e.perform ev).1 = e := by
  have hperforms := performs e ev
  generalize e.perform ev = outcome at hperforms herr ⊢
  cases hperforms with
  | fail ev err => rfl
  | propose => cases herr
  | approve => cases herr
  | execute => cases herr

/-- A call fails and changes nothing, or it stores the proposal that it
returns and changes nothing else. -/
theorem call_atomic (e : PolicyEnforcer) (ev : EnforcerEvent)
    (hfresh : ∀ id ∈ ev.uuid, e.getProposal id = none) :
    (∀ err, (e.perform ev).2 = .error err → (e.perform ev).1 = e) ∧
      ∀ p, (e.perform ev).2 = .ok p → StoresOne e (e.perform ev).1 ev.target p :=
  ⟨fun _ => perform_error, fun _ => perform_storesOne hfresh⟩

/-- Two proposals, one of them with two approvals. -/
def sampleStanding : PolicyEnforcer :=
  Machine.final step (new samplePolicy) (sampleEvents.take 2 ++
    [⟨.ofSecs 1002 (by decide), .propose "mutate_dns" "bob" (.bool true) "id-2"⟩])

theorem call_atomic_third_proposal :
    StoresOne sampleStanding
      (sampleStanding.perform
        ⟨.ofSecs 2000 (by decide), .propose "mutate_dns" "alice" .null "id-3"⟩).1 "id-3"
      ⟨"id-3", "mutate_dns", "alice", 2000, 5600, ["alice"], 2, .timelockActive, .null⟩ :=
  (call_atomic sampleStanding
    ⟨.ofSecs 2000 (by decide), .propose "mutate_dns" "alice" .null "id-3"⟩
    (fun id hid => by
      obtain rfl := Option.some.inj hid
      decide +kernel)).2 _ rfl

end PolicyEnforcer

end CivicConnect.GraphqlDns
