import CivicConnect.GraphqlDns.PolicyRuns

/-!
# Revisions of a proposal

What one call makes of the proposal that is stored under a given identifier.
Every fact about a single proposal along a run is read off these four cases.
-/

namespace CivicConnect.GraphqlDns

open Json

namespace PolicyEnforcer

inductive Revision (e : PolicyEnforcer) (id : String) :
    EnforcerEvent → Option MutationProposal → Prop where
  | keep (ev : EnforcerEvent) : Revision e id ev (e.getProposal id)
  | propose (now : SystemTime) (mutationName proposer : String) (payload : JsonValue)
      (entry : MutationPolicy) (hprivilege : e.policy.hasPrivilege proposer mutationName = true)
      (hentry : e.policy.getMutationPolicy mutationName = some entry) (hnow : 0 ≤ now.secs) :
      Revision e id ⟨now, .propose mutationName proposer payload id⟩
        (some (proposed entry mutationName proposer payload id now))
  | approve (now : SystemTime) (approver : String) (old : MutationProposal)
      (hget : e.getProposal id = some old)
      (hprivilege : e.policy.hasPrivilege approver old.mutationName = true)
      (hnew : approver ∉ old.approvals) :
      Revision e id ⟨now, .approve id approver⟩ (some (withApproval old approver))
  | execute (now : SystemTime) (old : MutationProposal) (hget : e.getProposal id = some old)
      (hstatus : old.status = .approved ∨ old.status = .timelockActive) :
      Revision e id ⟨now, .execute id⟩ (some { old with status := .executed })

variable {e : PolicyEnforcer} {ev : EnforcerEvent} {id : String} {p : MutationProposal}

theorem Revision.of_set {id' : String} {q : MutationProposal}
    (h : id = id' → Revision e id ev (some q)) :
    Revision e id ev ({ e with proposals := e.proposals.set id' q }.getProposal id) := by
  rw [getProposal, KeyedMap.get_set]
  split
  · next heq => exact h heq
  · exact Revision.keep ev

/-- Every call revises the stored proposal in one of the four ways. -/
theorem revision_step (e : PolicyEnforcer) (ev : EnforcerEvent) (id : String) :
    Revision e id ev ((e.step ev).1.getProposal id) := by
  have hperforms := performs e ev
  rw [step]
  generalize e.perform ev = outcome at hperforms ⊢
  cases hperforms with
  | fail ev err => exact Revision.keep ev
  | propose now mutationName proposer uuid payload entry hprivilege hentry hnow =>
      apply Revision.of_set
      intro heq
      subst heq
      exact Revision.propose now mutationName proposer payload entry hprivilege hentry hnow
  | approve now proposalId approver old hget hprivilege hnew =>
      apply Revision.of_set
      intro heq
      subst heq
      exact Revision.approve now approver old hget hprivilege hnew
  | execute now proposalId old hget hstatus =>
      apply Revision.of_set
      intro heq
      subst heq
      exact Revision.execute now old hget hstatus

theorem policy_step (e : PolicyEnforcer) (ev : EnforcerEvent) :
    (e.step ev).1.policy = e.policy := by
  have hperforms := performs e ev
  rw [step]
  generalize e.perform ev = outcome at hperforms ⊢
  cases hperforms <;> rfl

theorem policy_final (policy : Policy) (events : List EnforcerEvent) :
    (Machine.final step (new policy) events).policy = policy :=
  Machine.invariant_final (I := fun e : PolicyEnforcer => e.policy = policy)
    (fun ev _ e h => (policy_step e ev).trans h) rfl

/-- A proposal that passes its checks is stored. -/
theorem getProposal_propose {now : SystemTime} {mutationName proposer : String}
    {payload : JsonValue} {entry : MutationPolicy}
    (hprivilege : e.policy.hasPrivilege proposer mutationName = true)
    (hentry : e.policy.getMutationPolicy mutationName = some entry) (hnow : 0 ≤ now.secs) :
    (e.step ⟨now, .propose mutationName proposer payload id⟩).1.getProposal id =
      some (proposed entry mutationName proposer payload id now) := by
  simp only [step, perform, proposeMutation, hprivilege, hentry, SystemTime.asSecs, hnow, if_true]
  exact KeyedMap.get_set_self _ _ _

/-- An approval that passes its checks is added. -/
theorem getProposal_approve {now : SystemTime} {approver : String}
    (hget : e.getProposal id = some p)
    (hprivilege : e.policy.hasPrivilege approver p.mutationName = true)
    (hnew : approver ∉ p.approvals) :
    (e.step ⟨now, .approve id approver⟩).1.getProposal id = some (withApproval p approver) := by
  rw [getProposal] at hget
  simp only [step, perform, approveProposal, hget, hprivilege, if_true]
  rw [if_neg (by simpa using hnew)]
  exact KeyedMap.get_set_self _ _ _

end PolicyEnforcer

end CivicConnect.GraphqlDns
