import CivicConnect.Json.Value
import CivicConnect.Library.KeyedMap
import Mathlib.Algebra.Group.Nat.Defs
import Mathlib.Algebra.Ring.Int.Defs

/-!
# Policy enforcement

A mutation that the policy lists is proposed, approved and executed. The
enforcer keeps the proposals; every operation returns the new enforcer with
the proposal it touched, or an error that leaves the enforcer as it was.
-/

namespace CivicConnect.GraphqlDns

open Json

/-- A reading of the system clock in whole seconds since the epoch. -/
structure SystemTime where
  secs : ℤ
  lower : -2 ^ 63 ≤ secs
  upper : secs < 2 ^ 63
  deriving DecidableEq, Repr

def SystemTime.ofSecs (secs : ℕ) (h : secs < 2 ^ 63) : SystemTime := ⟨secs, by omega, by omega⟩

structure MutationPolicy where
  name : String
  description : String
  approvals : UInt32
  timelockHours : UInt32
  deriving DecidableEq, Repr

structure Role where
  name : String
  members : List String
  privileges : List String
  deriving DecidableEq, Repr

structure Policy where
  mutations : List MutationPolicy
  roles : List Role
  deriving DecidableEq, Repr

inductive ProposalStatus where
  | pending
  | timelockActive
  | approved
  | rejected
  | executed
  deriving DecidableEq, Repr

structure MutationProposal where
  id : String
  mutationName : String
  proposer : String
  proposedAt : UInt64
  timelockUntil : UInt64
  approvals : List String
  requiredApprovals : UInt32
  status : ProposalStatus
  payload : JsonValue

inductive PolicyError where
  | lacksPrivilege (identity privilege : String)
  | unknownMutation (name : String)
  | proposalNotFound (id : String)
  | alreadyApproved (approver : String)
  | cannotExecuteYet
  | clockBeforeEpoch
  deriving DecidableEq, Repr

def PolicyError.display : PolicyError → String
  | lacksPrivilege identity privilege =>
      "Identity " ++ identity ++ " lacks privilege for " ++ privilege
  | unknownMutation name => "Unknown mutation: " ++ name
  | proposalNotFound id => "Proposal not found: " ++ id
  | alreadyApproved approver => "Already approved by " ++ approver
  | cannotExecuteYet => "Proposal cannot be executed yet"
  | clockBeforeEpoch => "second time provided was later than self"

/-- `duration_since(UNIX_EPOCH)?.as_secs()`. -/
def SystemTime.asSecs (now : SystemTime) : Except PolicyError UInt64 :=
  if 0 ≤ now.secs then .ok (UInt64.ofNat now.secs.toNat) else .error .clockBeforeEpoch

namespace Policy

def hasPrivilege (p : Policy) (identity privilege : String) : Bool :=
  p.roles.any fun role => role.members.contains identity && role.privileges.contains privilege

def getMutationPolicy (p : Policy) (mutationName : String) : Option MutationPolicy :=
  p.mutations.find? fun m => m.name = mutationName

end Policy

structure PolicyEnforcer where
  policy : Policy
  proposals : KeyedMap String MutationProposal

namespace PolicyEnforcer

def new (policy : Policy) : PolicyEnforcer := ⟨policy, ∅⟩

/-- `approvals.len() as u32`. -/
def approvalCount (p : MutationProposal) : UInt32 := UInt32.ofNat p.approvals.length

def initialStatus (policy : MutationPolicy) : ProposalStatus :=
  if 0 < policy.timelockHours then .timelockActive
  else if policy.approvals ≤ 1 then .approved
  else .pending

def proposeMutation (e : PolicyEnforcer) (mutationName proposer : String) (payload : JsonValue)
    (uuid : String) (now : SystemTime) :
    PolicyEnforcer × Except PolicyError MutationProposal :=
  if e.policy.hasPrivilege proposer mutationName then
    match e.policy.getMutationPolicy mutationName with
    | none => (e, .error (.unknownMutation mutationName))
    | some policy =>
        match now.asSecs with
        | .error err => (e, .error err)
        | .ok now =>
            let proposal : MutationProposal :=
              { id := uuid
                mutationName := mutationName
                proposer := proposer
                proposedAt := now
                timelockUntil := now + policy.timelockHours.toUInt64 * 3600
                approvals := [proposer]
                requiredApprovals := policy.approvals
                status := initialStatus policy
                payload := payload }
            ({ e with proposals := e.proposals.set uuid proposal }, .ok proposal)
  else (e, .error (.lacksPrivilege proposer mutationName))

def withApproval (p : MutationProposal) (approver : String) : MutationProposal :=
  let p := { p with approvals := p.approvals ++ [approver] }
  if p.requiredApprovals ≤ approvalCount p ∧ p.status = .pending then
    { p with status := .approved }
  else p

def approveProposal (e : PolicyEnforcer) (proposalId approver : String) :
    PolicyEnforcer × Except PolicyError MutationProposal :=
  match e.proposals.get proposalId with
  | none => (e, .error (.proposalNotFound proposalId))
  | some proposal =>
      if e.policy.hasPrivilege approver proposal.mutationName then
        if proposal.approvals.contains approver then (e, .error (.alreadyApproved approver))
        else
          let proposal := withApproval proposal approver
          ({ e with proposals := e.proposals.set proposalId proposal }, .ok proposal)
      else (e, .error (.lacksPrivilege approver proposal.mutationName))

def canExecuteProposal (e : PolicyEnforcer) (proposalId : String) (now : SystemTime) :
    Except PolicyError Bool :=
  match e.proposals.get proposalId with
  | none => .error (.proposalNotFound proposalId)
  | some proposal =>
      if proposal.status ≠ .approved ∧ proposal.status ≠ .timelockActive then .ok false
      else if approvalCount proposal < proposal.requiredApprovals then .ok false
      else now.asSecs.map fun now => decide (proposal.timelockUntil ≤ now)

def executeProposal (e : PolicyEnforcer) (proposalId : String) (now : SystemTime) :
    PolicyEnforcer × Except PolicyError MutationProposal :=
  match e.canExecuteProposal proposalId now with
  | .error err => (e, .error err)
  | .ok false => (e, .error .cannotExecuteYet)
  | .ok true =>
      match e.proposals.get proposalId with
      | none => (e, .error (.proposalNotFound proposalId))
      | some proposal =>
          let proposal := { proposal with status := .executed }
          ({ e with proposals := e.proposals.set proposalId proposal }, .ok proposal)

def getProposals (e : PolicyEnforcer) : List MutationProposal := e.proposals.values

def getProposal (e : PolicyEnforcer) (proposalId : String) : Option MutationProposal :=
  e.proposals.get proposalId

theorem proposeMutation_ok {e e' : PolicyEnforcer} {mutationName proposer uuid : String}
    {payload : JsonValue} {now : SystemTime} {p : MutationProposal}
    (h : e.proposeMutation mutationName proposer payload uuid now = (e', .ok p)) :
    e.policy.hasPrivilege proposer mutationName = true ∧ 0 ≤ now.secs ∧
      ∃ policy, e.policy.getMutationPolicy mutationName = some policy ∧
        p = ⟨uuid, mutationName, proposer, UInt64.ofNat now.secs.toNat,
          UInt64.ofNat now.secs.toNat + policy.timelockHours.toUInt64 * 3600, [proposer],
          policy.approvals, initialStatus policy, payload⟩ ∧
        e' = { e with proposals := e.proposals.set uuid p } := by
  unfold proposeMutation at h
  split at h
  · next hprivilege =>
      cases hpolicy : e.policy.getMutationPolicy mutationName with
      | none => simp [hpolicy] at h
      | some policy =>
          by_cases hnow : 0 ≤ now.secs
          · simp only [hpolicy, SystemTime.asSecs, hnow, if_true, Prod.mk.injEq,
              Except.ok.injEq] at h
            obtain ⟨rfl, rfl⟩ := h
            exact ⟨hprivilege, hnow, policy, rfl, rfl, rfl⟩
          · simp [hpolicy, SystemTime.asSecs, hnow] at h
  · simp at h

theorem approveProposal_ok {e e' : PolicyEnforcer} {proposalId approver : String}
    {p : MutationProposal} (h : e.approveProposal proposalId approver = (e', .ok p)) :
    ∃ old, e.proposals.get proposalId = some old ∧
      e.policy.hasPrivilege approver old.mutationName = true ∧ approver ∉ old.approvals ∧
        p = withApproval old approver ∧
          e' = { e with proposals := e.proposals.set proposalId p } := by
  rw [approveProposal] at h
  cases hget : e.proposals.get proposalId with
  | none => simp [hget] at h
  | some old =>
      simp only [hget] at h
      split at h
      · next hprivilege =>
          split at h
          · simp at h
          · next hnew =>
              simp only [Prod.mk.injEq, Except.ok.injEq] at h
              obtain ⟨rfl, rfl⟩ := h
              exact ⟨old, rfl, hprivilege, by simpa using hnew, rfl, rfl⟩
      · simp at h

theorem executeProposal_ok {e e' : PolicyEnforcer} {proposalId : String} {now : SystemTime}
    {p : MutationProposal} (h : e.executeProposal proposalId now = (e', .ok p)) :
    ∃ old, e.proposals.get proposalId = some old ∧
      (old.status = .approved ∨ old.status = .timelockActive) ∧
        old.requiredApprovals ≤ approvalCount old ∧ 0 ≤ now.secs ∧
          old.timelockUntil ≤ UInt64.ofNat now.secs.toNat ∧
            p = { old with status := .executed } ∧
              e' = { e with proposals := e.proposals.set proposalId p } := by
  rw [executeProposal, canExecuteProposal] at h
  cases hget : e.proposals.get proposalId with
  | none => simp [hget] at h
  | some old =>
      simp only [hget] at h
      by_cases hstatus : old.status ≠ .approved ∧ old.status ≠ .timelockActive
      · simp [hstatus] at h
      · by_cases hcount : approvalCount old < old.requiredApprovals
        · simp [hstatus, hcount] at h
        · by_cases hnow : 0 ≤ now.secs
          · by_cases hlock : old.timelockUntil ≤ UInt64.ofNat now.secs.toNat
            · simp only [hstatus, hcount, if_false, SystemTime.asSecs, hnow, if_true, Except.map,
                hlock, decide_true, Prod.mk.injEq, Except.ok.injEq] at h
              obtain ⟨rfl, rfl⟩ := h
              refine ⟨old, rfl, ?_, UInt32.not_lt.mp hcount, hnow, hlock, rfl, rfl⟩
              by_contra hneither
              exact hstatus (not_or.mp hneither)
            · simp [hstatus, hcount, SystemTime.asSecs, hnow, Except.map, hlock] at h
          · simp [hstatus, hcount, SystemTime.asSecs, hnow, Except.map] at h

theorem proposeMutation_error {e e' : PolicyEnforcer} {mutationName proposer uuid : String}
    {payload : JsonValue} {now : SystemTime} {err : PolicyError}
    (h : e.proposeMutation mutationName proposer payload uuid now = (e', .error err)) : e' = e := by
  rw [proposeMutation] at h
  grind

theorem approveProposal_error {e e' : PolicyEnforcer} {proposalId approver : String}
    {err : PolicyError} (h : e.approveProposal proposalId approver = (e', .error err)) :
    e' = e := by
  rw [approveProposal] at h
  grind

theorem executeProposal_error {e e' : PolicyEnforcer} {proposalId : String} {now : SystemTime}
    {err : PolicyError} (h : e.executeProposal proposalId now = (e', .error err)) : e' = e := by
  rw [executeProposal] at h
  grind

end PolicyEnforcer

end CivicConnect.GraphqlDns
