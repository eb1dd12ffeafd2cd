import CivicConnect.GraphqlDns.PolicyRuns

/-!
# Executed proposals

The enforcer remembers what was executed: a stored proposal is marked as
executed exactly when an execution of its mutation and payload is on record.
-/

namespace CivicConnect.GraphqlDns

open Json

def MutationProposal.subject (p : MutationProposal) : String × JsonValue :=
  (p.mutationName, p.payload)

def Record.executed (r : Record) : Option MutationProposal :=
  match r.event.call, r.result with
  | .execute _, .ok p => some p
  | _, _ => none

namespace PolicyEnforcer

def HasExecuted (e : PolicyEnforcer) (subject : String × JsonValue) : Prop :=
  ∃ id p, e.getProposal id = some p ∧ p.status = .executed ∧ p.subject = subject

theorem initialStatus_ne (entry : MutationPolicy) : initialStatus entry ≠ .executed := by
  unfold initialStatus
  split
  · simp
  · split <;> simp

/-- What one call does to the enforcer, and what it returns. -/
inductive Effect (e : PolicyEnforcer) :
    EnforcerEvent → PolicyEnforcer → Except PolicyError MutationProposal → Prop where
  | fail (ev : EnforcerEvent) (err : PolicyError) : Effect e ev e (.error err)
  | propose (now : SystemTime) (mutationName proposer uuid : String) (payload : JsonValue)
      (p : MutationProposal) (hstatus : p.status ≠ .executed) :
      Effect e ⟨now, .propose mutationName proposer payload uuid⟩
        { e with proposals := e.proposals.set uuid p } (.ok p)
  | approve (now : SystemTime) (id approver : String) (old p : MutationProposal)
      (hget : e.proposals.get id = some old) (hsubject : p.subject = old.subject)
      (hstatus : p.status = .executed ↔ old.status = .executed) :
      Effect e ⟨now, .approve id approver⟩ { e with proposals := e.proposals.set id p } (.ok p)
  | execute (now : SystemTime) (id : String) (old p : MutationProposal)
      (hget : e.proposals.get id = some old) (hsubject : p.subject = old.subject)
      (hstatus : p.status = .executed) :
      Effect e ⟨now, .execute id⟩ { e with proposals := e.proposals.set id p } (.ok p)

theorem effect_perform (e : PolicyEnforcer) (ev : EnforcerEvent) :
    Effect e ev (e.perform ev).1 (e.perform ev).2 := by
  have hperforms := performs e ev
  generalize e.perform ev = outcome at hperforms ⊢
  cases hperforms with
  | fail ev err => exact Effect.fail ev err
  | propose now mutationName proposer uuid payload entry =>
      exact Effect.propose now mutationName proposer uuid payload _ (initialStatus_ne entry)
  | approve now id approver old hget =>
      obtain ⟨status, heq, hstatus⟩ := withApproval_eq old approver
      apply Effect.approve now id approver old _ hget
      · rw [heq]
        rfl
      · rw [heq]
        exact hstatus
  | execute now id old hget => exact Effect.execute now id old _ hget rfl rfl

variable {e : PolicyEnforcer} {subject : String × JsonValue} {used : List String}

theorem HasExecuted.of_step {ev : EnforcerEvent} (h : (e.step ev).1.HasExecuted subject) :
    e.HasExecuted subject ∨ ∃ q ∈ (e.step ev).2.executed, q.subject = subject := by
  obtain ⟨id, p, hget, hstatus, hsubject⟩ := h
  have heffect := effect_perform e ev
  simp only [step, getProposal] at hget ⊢
  generalize (e.perform ev).1 = e', (e.perform ev).2 = result at hget heffect ⊢
  -- The proposal was stored before, or it is the one that the call stored.
  cases heffect with
  | fail => exact .inl ⟨id, p, hget, hstatus, hsubject⟩
  | propose now mutationName proposer uuid payload q hq =>
      rw [KeyedMap.get_set] at hget
      split at hget
      · cases hget
        exact absurd hstatus hq
      · exact .inl ⟨id, p, hget, hstatus, hsubject⟩
  | approve now id' approver old q hold hsame hq =>
      rw [KeyedMap.get_set] at hget
      split at hget
      · cases hget
        exact .inl ⟨id', old, hold, hq.mp hstatus, hsame.symm.trans hsubject⟩
      · exact .inl ⟨id, p, hget, hstatus, hsubject⟩
  | execute now id' old q hold hsame hq =>
      rw [KeyedMap.get_set] at hget
      split at hget
      · cases hget
        exact .inr ⟨p, rfl, hsubject⟩
      · exact .inl ⟨id, p, hget, hstatus, hsubject⟩

theorem HasExecuted.of_executed {ev : EnforcerEvent} {q : MutationProposal}
    (h : (e.step ev).2.executed = some q) : (e.step ev).1.HasExecuted q.subject := by
  have heffect := effect_perform e ev
  simp only [step, Record.executed] at h ⊢
  generalize (e.perform ev).1 = e', (e.perform ev).2 = result at h heffect ⊢
  cases heffect with
  | fail => simp at h
  | propose => simp at h
  | approve => simp at h
  | execute now id old p hold hsame hp =>
      obtain rfl := Option.some.inj h
      exact ⟨id, p, KeyedMap.get_set_self _ _ _, hp, rfl⟩

/-- A call with a fresh identifier forgets no execution. -/
theorem HasExecuted.step {ev : EnforcerEvent} (h : e.HasExecuted subject)
    (hfresh : ∀ id ∈ ev.uuid, e.getProposal id = none) :
    (e.step ev).1.HasExecuted subject := by
  obtain ⟨id, p, hget, hstatus, hsubject⟩ := h
  have heffect := effect_perform e ev
  simp only [PolicyEnforcer.step, getProposal] at hget hfresh ⊢
  generalize (e.perform ev).1 = e', (e.perform ev).2 = result at heffect ⊢
  cases heffect with
  | fail => exact ⟨id, p, hget, hstatus, hsubject⟩
  | propose now mutationName proposer uuid payload q hq =>
      have hne : id ≠ uuid := by
        rintro rfl
        simp [hfresh id rfl] at hget
      exact ⟨id, p, (KeyedMap.get_set_ne _ _ hne).trans hget, hstatus, hsubject⟩
  | approve now id' approver old q hold hsame hq =>
      by_cases heq : id = id'
      · subst heq
        obtain rfl := Option.some.inj (hold.symm.trans hget)
        exact ⟨id, q, KeyedMap.get_set_self _ _ _, hq.mpr hstatus, hsame.trans hsubject⟩
      · exact ⟨id, p, (KeyedMap.get_set_ne _ _ heq).trans hget, hstatus, hsubject⟩
  | execute now id' old q hold hsame hq =>
      by_cases heq : id = id'
      · subst heq
        obtain rfl := Option.some.inj (hold.symm.trans hget)
        exact ⟨id, q, KeyedMap.get_set_self _ _ _, hq, hsame.trans hsubject⟩
      · exact ⟨id, p, (KeyedMap.get_set_ne _ _ heq).trans hget, hstatus, hsubject⟩

theorem getProposal_step {ev : EnforcerEvent} {id : String}
    (h : e.getProposal id = none) (hid : ev.uuid ≠ some id) :
    (e.step ev).1.getProposal id = none := by
  have heffect := effect_perform e ev
  simp only [step, getProposal] at h ⊢
  generalize (e.perform ev).1 = e', (e.perform ev).2 = result at heffect ⊢
  cases heffect with
  | fail => exact h
  | propose now mutationName proposer uuid payload q hq =>
      have hne : id ≠ uuid := fun heq => hid (by rw [heq]; rfl)
      exact (KeyedMap.get_set_ne _ _ hne).trans h
  | approve now id' approver old q hold hsame hq =>
      have hne : id ≠ id' := by
        rintro rfl
        simp [hold] at h
      exact (KeyedMap.get_set_ne _ _ hne).trans h
  | execute now id' old q hold hsame hq =>
      have hne : id ≠ id' := by
        rintro rfl
        simp [hold] at h
      exact (KeyedMap.get_set_ne _ _ hne).trans h

def Recorded (e : PolicyEnforcer) (log : List Record) : Prop :=
  ∀ subject, e.HasExecuted subject →
    ∃ q ∈ log.filterMap Record.executed, q.subject = subject

/-- What is on record is stored as executed, under identifiers that were drawn. -/
structure Remembers (used : List String) (e : PolicyEnforcer) (log : List Record) : Prop where
  unused : ∀ id, id ∉ used → e.getProposal id = none
  kept : ∀ q ∈ log.filterMap Record.executed, e.HasExecuted q.subject

theorem Recorded.step {log : List Record} (h : Recorded e log) (ev : EnforcerEvent) :
    Recorded (e.step ev).1 (log ++ [(e.step ev).2]) := by
  intro subject hnow
  rcases hnow.of_step with hbefore | ⟨q, hq, hsubject⟩
  · obtain ⟨q, hq, hsubject⟩ := h subject hbefore
    exact ⟨q, by simp [hq], hsubject⟩
  · exact ⟨q, by simp [Option.mem_def.mp hq], hsubject⟩

theorem Remembers.step {log : List Record} (h : Remembers used e log) {ev : EnforcerEvent}
    (hfresh : ∀ id ∈ ev.uuid, id ∉ used) :
    Remembers (ev.uuid.toList ++ used) (e.step ev).1 (log ++ [(e.step ev).2]) where
  unused id hid := by
    rw [List.mem_append, not_or, Option.mem_toList] at hid
    exact getProposal_step (h.unused id hid.2) hid.1
  kept q hq := by
    rw [List.filterMap_append, List.mem_append] at hq
    rcases hq with hq | hq
    · exact (h.kept q hq).step fun id hid => h.unused id (hfresh id hid)
    · exact HasExecuted.of_executed (by simpa using hq)

/-- Every executed proposal that is stored was executed by a call of the run. -/
theorem recorded_records (policy : Policy) (events : List EnforcerEvent) :
    Recorded (Machine.final step (new policy) events) (records policy events) := by
  refine Machine.invariant_trace (I := Recorded) (fun _ _ ev h => h.step ev) ?_ events
  rintro subject ⟨id, p, hget, _⟩
  simp [getProposal, new] at hget

theorem remembers_records (policy : Policy) {events : List EnforcerEvent}
    (hfresh : FreshIds events) :
    ∃ used, Remembers used (Machine.final step (new policy) events) (records policy events) := by
  have hlegal := legal_of_fresh [] hfresh (by simp)
  refine ⟨_, hlegal.invariant_trace (I := Remembers) ?_ ?_⟩
  · intro used e log ev hvalid h
    exact h.step hvalid
  · constructor <;> simp [getProposal, new]

end PolicyEnforcer

end CivicConnect.GraphqlDns
