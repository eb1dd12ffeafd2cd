import CivicConnect.GraphqlDns.Revisions

/-!
# Readiness of a proposal

`canExecuteProposal` looks at the status first. No reachable proposal is pending
with enough approvals, and none is rejected, so that the status only keeps out
the executed ones, and readiness is a matter of the approvals and the timelock.
-/

namespace CivicConnect.GraphqlDns

open Json

namespace PolicyEnforcer

/-- What the status of a proposal says about its approvals. -/
structure Tracked (p : MutationProposal) : Prop where
  pending : p.status = .pending → p.approvals.length < p.requiredApprovals.toNat
  approved : p.status = .approved → p.requiredApprovals.toNat ≤ p.approvals.length
  ne_rejected : p.status ≠ .rejected

variable {e : PolicyEnforcer} {id : String} {p : MutationProposal}

theorem approvalCount_le (p : MutationProposal) :
    (approvalCount p).toNat ≤ p.approvals.length := by
  rw [approvalCount, UInt32.toNat_ofNat']
  exact Nat.mod_le _ _

theorem approvalCount_eq (h : p.approvals.length < 2 ^ 32) :
    (approvalCount p).toNat = p.approvals.length := by
  rw [approvalCount, UInt32.toNat_ofNat']
  exact Nat.mod_eq_of_lt h

theorem initialStatus_cases (entry : MutationPolicy) :
    initialStatus entry = .timelockActive ∨
      initialStatus entry = .approved ∧ entry.approvals.toNat ≤ 1 ∨
        initialStatus entry = .pending ∧ 1 < entry.approvals.toNat := by
  have hone : entry.approvals ≤ 1 ↔ entry.approvals.toNat ≤ 1 := UInt32.le_iff_toNat_le
  unfold initialStatus
  split
  · exact .inl rfl
  · split
    · next hfew => exact .inr (.inl ⟨rfl, hone.mp hfew⟩)
    · next hmany => exact .inr (.inr ⟨rfl, Nat.lt_of_not_le (mt hone.mpr hmany)⟩)

theorem tracked_proposed (entry : MutationPolicy) (mutationName proposer : String)
    (payload : JsonValue) (uuid : String) (now : SystemTime) :
    Tracked (proposed entry mutationName proposer payload uuid now) := by
  rcases initialStatus_cases entry with hstatus | ⟨hstatus, hfew⟩ | ⟨hstatus, hmany⟩
  · constructor <;> simp [proposed, hstatus]
  · constructor <;> simp [proposed, hstatus, hfew]
  · constructor <;> simp [proposed, hstatus, hmany]

/-- The threshold is met by the approval that completes the list, and the
status is switched there, before the count can wrap around. -/
theorem Tracked.withApproval (h : Tracked p) (approver : String) :
    Tracked (withApproval p approver) := by
  let next := { p with approvals := p.approvals ++ [approver] }
  have hlength : next.approvals.length = p.approvals.length + 1 := List.length_append
  rw [PolicyEnforcer.withApproval]
  dsimp only
  split
  · next hreached =>
      have hcount := UInt32.le_iff_toNat_le.mp hreached.1
      constructor
      · simp
      · exact fun _ => hcount.trans (approvalCount_le next)
      · simp
  · next hnot =>
      constructor
      · intro hpending
        have hbefore := h.pending hpending
        have hbound := p.requiredApprovals.toNat_lt
        have hcount := approvalCount_eq (p := next) (by omega)
        have hmissing : ¬ p.requiredApprovals.toNat ≤ (approvalCount next).toNat :=
          fun hle => hnot ⟨UInt32.le_iff_toNat_le.mpr hle, hpending⟩
        change next.approvals.length < p.requiredApprovals.toNat
        omega
      · intro happroved
        change p.requiredApprovals.toNat ≤ next.approvals.length
        have hbefore := h.approved happroved
        omega
      · exact h.ne_rejected

def AllTracked (e : PolicyEnforcer) : Prop := ∀ id p, e.getProposal id = some p → Tracked p

theorem AllTracked.step (h : e.AllTracked) (ev : EnforcerEvent) : (e.step ev).1.AllTracked := by
  intro id p hget
  have hrevision := revision_step e ev id
  rw [hget] at hrevision
  generalize hp : some p = stored at hrevision
  cases hrevision with
  | keep => exact h id p hp.symm
  | propose now mutationName proposer payload entry =>
      obtain rfl := Option.some.inj hp
      exact tracked_proposed entry mutationName proposer payload id now
  | approve now approver old hold =>
      obtain rfl := Option.some.inj hp
      exact (h id old hold).withApproval approver
  | execute now old hold =>
      obtain rfl := Option.some.inj hp
      constructor <;> simp

theorem allTracked_final (policy : Policy) (events : List EnforcerEvent) :
    (Machine.final step (new policy) events).AllTracked := by
  refine Machine.invariant_final (fun ev _ e h => AllTracked.step h ev) ?_
  intro id p hget
  cases hget

theorem canExecuteProposal_true_iff {now : SystemTime} (hget : e.getProposal id = some p) :
    e.canExecuteProposal id now = .ok true ↔
      (p.status = .approved ∨ p.status = .timelockActive) ∧
        p.requiredApprovals ≤ approvalCount p ∧ (p.timelockUntil.toNat : ℤ) ≤ now.secs := by
  rw [getProposal] at hget
  rw [canExecuteProposal, hget]
  dsimp only
  by_cases hstatus : p.status ≠ .approved ∧ p.status ≠ .timelockActive
  · rw [if_pos hstatus]
    simp [hstatus]
  · rw [if_neg hstatus]
    by_cases hcount : approvalCount p < p.requiredApprovals
    · rw [if_pos hcount]
      simp [UInt32.not_le.mpr hcount]
    · have hopen : p.status = .approved ∨ p.status = .timelockActive := by
        by_contra hneither
        exact hstatus (not_or.mp hneither)
      rw [if_neg hcount, SystemTime.asSecs]
      split
      · next hnow =>
          have hupper := now.upper
          have hsecs : (UInt64.ofNat now.secs.toNat).toNat = now.secs.toNat := by
            rw [UInt64.toNat_ofNat']
            omega
          have hlock : p.timelockUntil ≤ UInt64.ofNat now.secs.toNat ↔
              (p.timelockUntil.toNat : ℤ) ≤ now.secs := by
            rw [UInt64.le_iff_toNat_le, hsecs]
            omega
          simp [Except.map, hlock, hopen, UInt32.not_lt.mp hcount]
      · next hnow =>
          have hlock : ¬ (p.timelockUntil.toNat : ℤ) ≤ now.secs := by omega
          simp [Except.map, hlock]

/-- In a reachable state the status rules out nothing but a second execution. -/
theorem AllTracked.canExecute_iff (h : e.AllTracked) (hget : e.getProposal id = some p)
    (hlength : p.approvals.length < 2 ^ 32) (now : SystemTime) :
    e.canExecuteProposal id now = .ok true ↔
      p.status ≠ .executed ∧ p.requiredApprovals.toNat ≤ p.approvals.length ∧
        (p.timelockUntil.toNat : ℤ) ≤ now.secs := by
  have htracked := h id p hget
  rw [canExecuteProposal_true_iff hget, UInt32.le_iff_toNat_le, approvalCount_eq hlength]
  constructor
  · rintro ⟨hstatus, hcount, hlock⟩
    refine ⟨?_, hcount, hlock⟩
    rcases hstatus with hstatus | hstatus <;> simp [hstatus]
  · rintro ⟨hopen, hcount, hlock⟩
    refine ⟨?_, hcount, hlock⟩
    cases hstatus : p.status with
    | pending => exact absurd hcount (Nat.not_le.mpr (htracked.pending hstatus))
    | timelockActive => exact .inr rfl
    | approved => exact .inl rfl
    | rejected => exact absurd hstatus htracked.ne_rejected
    | executed => exact absurd hstatus hopen

/-- A later form of the same proposal. -/
structure Continues (p q : MutationProposal) : Prop where
  required : q.requiredApprovals = p.requiredApprovals
  timelock : q.timelockUntil = p.timelockUntil
  approvals : p.approvals.length ≤ q.approvals.length

theorem Continues.step {ev : EnforcerEvent} (hid : ev.uuid ≠ some id) {q : MutationProposal}
    (h : Continues p q) (hget : e.getProposal id = some q) :
    ∃ q', (e.step ev).1.getProposal id = some q' ∧ Continues p q' := by
  have hrevision := revision_step e ev id
  generalize (e.step ev).1.getProposal id = stored at hrevision
  cases hrevision with
  | keep => exact ⟨q, hget, h⟩
  | propose => exact absurd rfl hid
  | approve now approver old hold =>
      obtain rfl := Option.some.inj (hold.symm.trans hget)
      obtain ⟨status, heq, _⟩ := withApproval_eq old approver
      rw [heq]
      refine ⟨_, rfl, h.required, h.timelock, h.approvals.trans ?_⟩
      rw [List.length_append]
      exact Nat.le_add_right _ _
  | execute now old hold =>
      obtain rfl := Option.some.inj (hold.symm.trans hget)
      exact ⟨_, rfl, h.required, h.timelock, h.approvals⟩

theorem Continues.run {later : List EnforcerEvent} (hids : ∀ ev ∈ later, ev.uuid ≠ some id)
    (hget : e.getProposal id = some p) :
    ∃ q, (Machine.final PolicyEnforcer.step e later).getProposal id = some q ∧
      Continues p q := by
  refine Machine.invariant_final
    (I := fun e : PolicyEnforcer => ∃ q, e.getProposal id = some q ∧ Continues p q) ?_
    ⟨p, hget, rfl, rfl, Nat.le_refl _⟩
  rintro ev hev e ⟨q, hq, hcontinues⟩
  exact hcontinues.step (hids ev hev) hq

/-- A stored proposal can be executed exactly when it has not been executed,
has its approvals and is past its timelock; and then it stays so whatever is
called later, until it is executed. -/
theorem readiness (policy : Policy) (events : List EnforcerEvent) {id : String}
    {p : MutationProposal}
    (hget : (Machine.final step (new policy) events).getProposal id = some p)
    (hlength : p.approvals.length < 2 ^ 32) (now : SystemTime) :
    ((Machine.final step (new policy) events).canExecuteProposal id now = .ok true ↔
      p.status ≠ .executed ∧ p.requiredApprovals.toNat ≤ p.approvals.length ∧
        (p.timelockUntil.toNat : ℤ) ≤ now.secs) ∧
    ((Machine.final step (new policy) events).canExecuteProposal id now = .ok true →
      ∀ (later : List EnforcerEvent) (now' : SystemTime),
        (∀ ev ∈ later, ev.uuid ≠ some id) → now.secs ≤ now'.secs →
          ∃ q, (Machine.final step (new policy) (events ++ later)).getProposal id = some q ∧
            (q.status ≠ .executed → q.approvals.length < 2 ^ 32 →
              (Machine.final step (new policy) (events ++ later)).canExecuteProposal id now' =
                .ok true)) := by
  have hready := (allTracked_final policy events).canExecute_iff hget hlength now
  refine ⟨hready, fun hnow later now' hids hle => ?_⟩
  obtain ⟨_, hcount, hlock⟩ := hready.mp hnow
  obtain ⟨q, hq, hcontinues⟩ := Continues.run hids hget
  rw [← Machine.final_append] at hq
  refine ⟨q, hq, fun hopen hq32 => ?_⟩
  refine ((allTracked_final policy (events ++ later)).canExecute_iff hq hq32 now').mpr
    ⟨hopen, ?_, ?_⟩
  · rw [hcontinues.required]
    exact hcount.trans hcontinues.approvals
  · rw [hcontinues.timelock]
    exact Int.le_trans hlock hle

/-- Two approvals and an hour, and then a call that fails. -/
theorem readiness_two_approvals :
    ∃ q, (Machine.final step (new samplePolicy) (sampleEvents.take 2 ++
        [⟨.ofSecs 4700 (by decide), .approve "id-1" "carol"⟩])).getProposal "id-1" = some q ∧
      (q.status ≠ .executed → q.approvals.length < 2 ^ 32 →
        (Machine.final step (new samplePolicy) (sampleEvents.take 2 ++
          [⟨.ofSecs 4700 (by decide), .approve "id-1" "carol"⟩])).canExecuteProposal "id-1"
            (.ofSecs 4800 (by decide)) = .ok true) := by
  let stored : MutationProposal :=
    ⟨"id-1", "mutate_dns", "alice", 1000, 4600, ["alice", "bob"], 2, .timelockActive, .null⟩
  have hget : (Machine.final step (new samplePolicy) (sampleEvents.take 2)).getProposal "id-1" =
    some stored := rfl
  obtain ⟨hready, hstays⟩ := readiness samplePolicy (sampleEvents.take 2) hget (by decide)
    (.ofSecs 4600 (by decide))
  refine hstays (hready.mpr ⟨nofun, by decide, by decide⟩) _ _ ?_ (by decide)
  exact List.forall_mem_singleton.mpr nofun

end PolicyEnforcer

end CivicConnect.GraphqlDns
