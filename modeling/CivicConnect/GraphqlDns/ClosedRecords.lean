import CivicConnect.GraphqlDns.Governance
import CivicConnect.GraphqlDns.Revisions

/-!
# Executed proposals as records

An executed proposal cannot be executed again, since `canExecuteProposal` looks
at the status. `approveProposal` does not: an identity with the privilege that
has not approved yet still gets onto the list.
-/

namespace CivicConnect.GraphqlDns

open Json

namespace PolicyEnforcer

/-- The call approves `p` in the name of someone who may and has not yet. -/
def AddsApprover (policy : Policy) (id : String) (p : MutationProposal) (ev : EnforcerEvent) :
    Prop :=
  ∃ approver, ev.call = .approve id approver ∧
    policy.hasPrivilege approver p.mutationName = true ∧ approver ∉ p.approvals

variable {e : PolicyEnforcer} {ev : EnforcerEvent} {id : String} {p : MutationProposal}

/-- An executed proposal survives a call exactly when the call does not add an
approver to it. -/
theorem executed_step_iff (hget : e.getProposal id = some p) (hdone : p.status = .executed)
    (hid : ev.uuid ≠ some id) :
    (e.step ev).1.getProposal id = some p ↔ ¬ AddsApprover e.policy id p ev := by
  constructor
  · rintro hsame ⟨approver, hcall, hprivilege, hnew⟩
    obtain ⟨now, call⟩ := ev
    obtain rfl : call = _ := hcall
    rw [getProposal_approve hget hprivilege hnew] at hsame
    exact withApproval_ne p approver (Option.some.inj hsame)
  · intro hadds
    have hrevision := revision_step e ev id
    generalize (e.step ev).1.getProposal id = stored at hrevision ⊢
    cases hrevision with
    | keep => exact hget
    | propose => exact absurd rfl hid
    | approve now approver old hold hprivilege hnew =>
        obtain rfl := Option.some.inj (hold.symm.trans hget)
        exact absurd ⟨approver, rfl, hprivilege, hnew⟩ hadds
    | execute now old hold hstatus =>
        obtain rfl := Option.some.inj (hold.symm.trans hget)
        rw [hdone] at hstatus
        rcases hstatus with hstatus | hstatus <;> cases hstatus

/-- An executed proposal stays as it was in every state that a later run
reaches exactly when no call of the run adds an approver to it. -/
theorem executed_unchanged_iff (policy : Policy) (events : List EnforcerEvent) {id : String}
    {p : MutationProposal}
    (hget : (Machine.final step (new policy) events).getProposal id = some p)
    (hdone : p.status = .executed) {later : List EnforcerEvent}
    (hids : ∀ ev ∈ later, ev.uuid ≠ some id) :
    (∀ pre post, later = pre ++ post →
      (Machine.final step (new policy) (events ++ pre)).getProposal id = some p) ↔
    ∀ ev ∈ later, ¬ AddsApprover policy id p ev := by
  simp only [Machine.final_append]
  rw [Machine.always_iff (I := fun e : PolicyEnforcer => e.getProposal id = some p)
    (J := fun e : PolicyEnforcer => e.policy = policy)
    (P := fun _ ev => ¬ AddsApprover policy id p ev) ?_ ?_ (policy_final policy events) hget]
  · constructor
    · intro h ev hev
      obtain ⟨pre, post, heq⟩ := List.append_of_mem hev
      exact h pre ev post heq
    · intro h pre ev post heq
      exact h ev (heq ▸ List.mem_append_right pre List.mem_cons_self)
  · intro ev _ e hpolicy
    exact (policy_step e ev).trans hpolicy
  · rintro ev hev e rfl hsame
    exact executed_step_iff hsame hdone (hids ev hev)

/-- A second approval by an approver of an executed proposal is refused. -/
theorem executed_unchanged_iff_again :
    (Machine.final step (new samplePolicy)
      (sampleEvents ++ [⟨.ofSecs 4700 (by decide), .approve "id-1" "bob"⟩])).getProposal "id-1" =
      some ⟨"id-1", "mutate_dns", "alice", 1000, 4600, ["alice", "bob"], 2, .executed, .null⟩ := by
  refine (executed_unchanged_iff samplePolicy sampleEvents rfl rfl ?_).mpr ?_ _ []
    (List.append_nil _).symm
  · exact List.forall_mem_singleton.mpr nofun
  · rw [List.forall_mem_singleton]
    rintro ⟨approver, hcall, _, hnew⟩
    cases hcall
    exact hnew (by decide)

/-- Under `policy.ncl` the second maintainer approves what the first has
proposed and executed. -/
theorem executed_proposal_approved :
    ¬ ∀ (policy : Policy) (events : List EnforcerEvent) (id : String) (p : MutationProposal),
      (Machine.final step (new policy) events).getProposal id = some p → p.status = .executed →
        ∀ later : List EnforcerEvent, (∀ ev ∈ later, ev.uuid ≠ some id) →
          (Machine.final step (new policy) (events ++ later)).getProposal id = some p := by
  intro hclosed
  let executed : MutationProposal :=
    ⟨"id-1", "mutate_dns", "identity:alice", 1000, 4600, ["identity:alice"], 1, .executed, .null⟩
  have hget : (Machine.final step (new AppState.curpsPolicy)
      [⟨.ofSecs 1000 (by decide), .propose "mutate_dns" "identity:alice" .null "id-1"⟩,
        ⟨.ofSecs 4600 (by decide), .execute "id-1"⟩]).getProposal "id-1" = some executed := rfl
  let late : EnforcerEvent := ⟨.ofSecs 4700 (by decide), .approve "id-1" "identity:jonathan"⟩
  have hid : late.uuid ≠ some "id-1" := nofun
  have hsame := hclosed _ _ _ _ hget rfl [late] (List.forall_mem_singleton.mpr hid)
  rw [Machine.final_append] at hsame
  exact (executed_step_iff hget rfl hid).mp hsame ⟨"identity:jonathan", rfl, rfl, by decide⟩

end PolicyEnforcer

end CivicConnect.GraphqlDns
