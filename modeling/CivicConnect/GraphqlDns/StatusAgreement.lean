import CivicConnect.GraphqlDns.Governance
import CivicConnect.GraphqlDns.Readiness

/-!
# Status and approvals

The query `proposals` filters by status. A proposal without a timelock turns
approved when its approvals are complete; one with a timelock keeps the status
that it was created with, however many approvals it has.
-/

namespace CivicConnect.GraphqlDns

open Json

/-- The resolver `proposals`. -/
def QueryRoot.proposals (enforcer : PolicyEnforcer) (status : Option ProposalStatus) :
    List MutationProposal :=
  match status with
  | some statusFilter => enforcer.getProposals.filter fun p => p.status = statusFilter
  | none => enforcer.getProposals

namespace PolicyEnforcer

/-- A proposal that is not executed is approved when its approvals are complete. -/
def StatusAgrees (e : PolicyEnforcer) : Prop :=
  ∀ id p, e.getProposal id = some p → p.status ≠ .executed →
    (p.status = .approved ↔ p.requiredApprovals.toNat ≤ p.approvals.length)

/-- Listing by status yields what is approved and not yet executed. -/
def ListsApproved (e : PolicyEnforcer) : Prop :=
  ∀ p, p ∈ QueryRoot.proposals e (some .approved) ↔
    p ∈ e.getProposals ∧ p.status ≠ .executed ∧ p.requiredApprovals.toNat ≤ p.approvals.length

/-- The call completes the approvals of a proposal that has a timelock. -/
def Crosses (e : PolicyEnforcer) (ev : EnforcerEvent) : Prop :=
  match ev.call with
  | .propose mutationName proposer _ _ =>
      e.policy.hasPrivilege proposer mutationName = true ∧ 0 ≤ ev.now.secs ∧
        ∃ entry, e.policy.getMutationPolicy mutationName = some entry ∧
          0 < entry.timelockHours ∧ entry.approvals.toNat ≤ 1
  | .approve proposalId approver =>
      ∃ p, e.getProposal proposalId = some p ∧
        e.policy.hasPrivilege approver p.mutationName = true ∧ approver ∉ p.approvals ∧
          p.status = .timelockActive ∧ p.requiredApprovals.toNat ≤ p.approvals.length + 1
  | .execute _ => False

variable {e : PolicyEnforcer} {ev : EnforcerEvent} {p : MutationProposal}

theorem mem_getProposals_iff : p ∈ e.getProposals ↔ ∃ id, e.getProposal id = some p := by
  rw [getProposals, KeyedMap.values, List.mem_map]
  constructor
  · rintro ⟨⟨id, q⟩, hmem, rfl⟩
    exact ⟨id, (KeyedMap.mem_entries_iff _ _ _).mp hmem⟩
  · rintro ⟨id, hget⟩
    exact ⟨⟨id, p⟩, (KeyedMap.mem_entries_iff _ _ _).mpr hget, rfl⟩

theorem AllTracked.statusAgrees_iff (h : e.AllTracked) :
    e.StatusAgrees ↔ ∀ id p, e.getProposal id = some p → p.status = .timelockActive →
      p.approvals.length < p.requiredApprovals.toNat := by
  constructor
  · intro hagrees id p hget hstatus
    have hiff := hagrees id p hget (by simp [hstatus])
    simpa [hstatus] using hiff
  · intro hlocked id p hget hopen
    have htracked := h id p hget
    refine ⟨htracked.approved, fun hcount => ?_⟩
    cases hstatus : p.status with
    | pending => exact absurd hcount (Nat.not_le.mpr (htracked.pending hstatus))
    | timelockActive => exact absurd hcount (Nat.not_le.mpr (hlocked id p hget hstatus))
    | approved => rfl
    | rejected => exact absurd hstatus htracked.ne_rejected
    | executed => exact absurd hstatus hopen

/-- The list by status is right exactly when the statuses are. -/
theorem listsApproved_iff : e.ListsApproved ↔ e.StatusAgrees := by
  have hlisted : ∀ p, p ∈ QueryRoot.proposals e (some .approved) ↔
      p ∈ e.getProposals ∧ p.status = .approved := by
    intro p
    rw [QueryRoot.proposals, List.mem_filter, decide_eq_true_eq]
  constructor
  · intro hlists id p hget hopen
    have hmem : p ∈ e.getProposals := mem_getProposals_iff.mpr ⟨id, hget⟩
    have hiff := (hlisted p).symm.trans (hlists p)
    simpa [hmem, hopen] using hiff
  · intro hagrees p
    rw [hlisted p]
    apply and_congr_right
    intro hmem
    obtain ⟨id, hget⟩ := mem_getProposals_iff.mp hmem
    by_cases hexecuted : p.status = .executed
    · simp [hexecuted]
    · simp [hexecuted, hagrees id p hget hexecuted]

theorem status_withApproval (p : MutationProposal) (approver : String) :
    (withApproval p approver).status = .timelockActive ↔ p.status = .timelockActive := by
  rw [withApproval]
  dsimp only
  split
  · next hreached => simp [hreached.2]
  · rfl

theorem withApproval_short_iff (p : MutationProposal) (approver : String) :
    (withApproval p approver).approvals.length <
        (withApproval p approver).requiredApprovals.toNat ↔
      p.approvals.length + 1 < p.requiredApprovals.toNat := by
  obtain ⟨status, heq, _⟩ := withApproval_eq p approver
  rw [heq]
  simp only [List.length_append, List.length_singleton]

theorem initialStatus_eq_timelockActive_iff (entry : MutationPolicy) :
    initialStatus entry = .timelockActive ↔ 0 < entry.timelockHours := by
  rw [initialStatus]
  split
  · next hlock => simp [hlock]
  · next hlock =>
      simp only [hlock, iff_false]
      split <;> simp

/-- One call keeps the agreement exactly when it does not complete the
approvals of a proposal with a timelock. -/
theorem StatusAgrees.step_iff (htracked : e.AllTracked) (h : e.StatusAgrees) :
    (e.step ev).1.StatusAgrees ↔ ¬ e.Crosses ev := by
  rw [htracked.statusAgrees_iff] at h
  rw [(htracked.step ev).statusAgrees_iff]
  constructor
  · intro hafter hcrosses
    obtain ⟨now, call⟩ := ev
    cases call with
    | propose mutationName proposer payload uuid =>
        obtain ⟨hprivilege, hnow, entry, hentry, hlock, hfew⟩ := hcrosses
        have hcount := hafter uuid _ (getProposal_propose hprivilege hentry hnow)
          ((initialStatus_eq_timelockActive_iff entry).mpr hlock)
        exact absurd hcount (Nat.not_lt.mpr hfew)
    | approve proposalId approver =>
        obtain ⟨p, hget, hprivilege, hnew, hstatus, hfull⟩ := hcrosses
        have hcount := hafter proposalId _ (getProposal_approve hget hprivilege hnew)
          ((status_withApproval p approver).mpr hstatus)
        rw [withApproval_short_iff] at hcount
        exact absurd hcount (Nat.not_lt.mpr hfull)
    | execute proposalId => exact hcrosses
  · intro hcrosses id p hget hstatus
    have hrevision := revision_step e ev id
    rw [hget] at hrevision
    generalize hp : some p = stored at hrevision
    cases hrevision with
    | keep => exact h id p hp.symm hstatus
    | propose now mutationName proposer payload entry hprivilege hentry hnow =>
        obtain rfl := Option.some.inj hp
        have hlock := (initialStatus_eq_timelockActive_iff entry).mp hstatus
        exact Nat.lt_of_not_le fun hfew =>
          hcrosses ⟨hprivilege, hnow, entry, hentry, hlock, hfew⟩
    | approve now approver old hold hprivilege hnew =>
        obtain rfl := Option.some.inj hp
        rw [status_withApproval] at hstatus
        rw [withApproval_short_iff]
        exact Nat.lt_of_not_le fun hfull =>
          hcrosses ⟨old, hold, hprivilege, hnew, hstatus, hfull⟩
    | execute now old hold =>
        obtain rfl := Option.some.inj hp
        cases hstatus

/-- The reported status agrees with the approvals in every state of a run
exactly when no call of the run completes the approvals of a proposal that has
a timelock: such a proposal is never reported as approved. -/
theorem statusAgrees_iff_not_crosses (policy : Policy) (events : List EnforcerEvent) :
    (∀ pre post, events = pre ++ post →
      (Machine.final step (new policy) pre).StatusAgrees ∧
        (Machine.final step (new policy) pre).ListsApproved) ↔
    ∀ pre ev post, events = pre ++ ev :: post →
      ¬ (Machine.final step (new policy) pre).Crosses ev := by
  simp only [listsApproved_iff, and_self]
  refine Machine.always_iff (I := StatusAgrees) (J := AllTracked)
    (P := fun e ev => ¬ e.Crosses ev) (fun ev _ _ h => h.step ev) ?_ ?_ ?_
  · intro ev _ e htracked h
    exact h.step_iff htracked
  · exact allTracked_final policy []
  · intro id p hget
    cases hget

/-- Under `policy.ncl` one approval is enough for `mutate_dns`, and the proposer
gives it; the proposal is stored as waiting for its timelock. -/
theorem complete_proposal_not_approved :
    ¬ ∀ (policy : Policy) (events : List EnforcerEvent),
      (Machine.final step (new policy) events).StatusAgrees ∧
        (Machine.final step (new policy) events).ListsApproved := by
  intro hagrees
  let stored : MutationProposal :=
    ⟨"id-1", "mutate_dns", "identity:alice", 1000, 4600, ["identity:alice"], 1, .timelockActive,
      .null⟩
  have hget : (Machine.final step (new AppState.curpsPolicy)
      [⟨.ofSecs 1000 (by decide), .propose "mutate_dns" "identity:alice" .null "id-1"⟩]).getProposal
        "id-1" = some stored := rfl
  have hiff := (hagrees _ _).1 "id-1" stored hget nofun
  cases hiff.mpr (by decide)

end PolicyEnforcer

end CivicConnect.GraphqlDns
