import CivicConnect.Library.Machine

/-!
# Event logs

A machine whose steps emit events, against a view of its state that the events
alone determine. If every step changes the view as its event says, a log can be
replayed; if besides every event that the view admits is emitted by some step,
the logs of the runs are exactly those with each event admitted where it stands.
-/

universe u v w x y

namespace EventLog

variable {σ : Type u} {ι : Type v} {ο : Type w} {τ : Type x} {ε : Type y}

/-- The laws of an event log, in the states that keep an invariant. -/
structure Sourced (step : σ → ι → σ × ο) (emit : ο → Option ε) (view : σ → τ)
    (apply : τ → ε → τ) (admits : τ → ε → Prop) (invariant : σ → Prop) : Prop where
  keep : ∀ s i, invariant s → invariant (step s i).1
  silent : ∀ s i, invariant s → emit (step s i).2 = none → view (step s i).1 = view s
  event : ∀ s i e, invariant s → emit (step s i).2 = some e →
    admits (view s) e ∧ view (step s i).1 = apply (view s) e
  complete : ∀ s e, invariant s → admits (view s) e → ∃ i, emit (step s i).2 = some e

def events (step : σ → ι → σ × ο) (emit : ο → Option ε) (s : σ) (is : List ι) : List ε :=
  (Machine.trace step s is).filterMap emit

variable {step : σ → ι → σ × ο} {emit : ο → Option ε} {view : σ → τ} {apply : τ → ε → τ}
  {admits : τ → ε → Prop} {invariant : σ → Prop} {s : σ}

@[simp] theorem events_nil : events step emit s [] = [] := rfl

theorem events_cons_silent {i : ι} {is : List ι} (h : emit (step s i).2 = none) :
    events step emit s (i :: is) = events step emit (step s i).1 is := by
  rw [events, Machine.trace_cons, List.filterMap_cons_none h]
  rfl

theorem events_cons_event {i : ι} {is : List ι} {e : ε} (h : emit (step s i).2 = some e) :
    events step emit s (i :: is) = e :: events step emit (step s i).1 is := by
  rw [events, Machine.trace_cons, List.filterMap_cons_some h]
  rfl

namespace Sourced

variable (h : Sourced step emit view apply admits invariant)

include h

/-- The view after a run is the replay of its events. -/
theorem view_final (hs : invariant s) (is : List ι) :
    view (Machine.final step s is) = (events step emit s is).foldl apply (view s) := by
  induction is generalizing s with
  | nil => rfl
  | cons i is ih =>
      have hrest := ih (h.keep s i hs)
      cases hemit : emit (step s i).2 with
      | none =>
          rw [Machine.final_cons, hrest, h.silent s i hs hemit, events_cons_silent hemit]
      | some e =>
          rw [Machine.final_cons, hrest, (h.event s i e hs hemit).2, events_cons_event hemit,
            List.foldl_cons]

theorem legal_events (hs : invariant s) (is : List ι) :
    Machine.Legal admits apply (view s) (events step emit s is) := by
  induction is generalizing s with
  | nil => trivial
  | cons i is ih =>
      have hrest := ih (h.keep s i hs)
      cases hemit : emit (step s i).2 with
      | none =>
          rw [events_cons_silent hemit, ← h.silent s i hs hemit]
          exact hrest
      | some e =>
          obtain ⟨hadmits, hview⟩ := h.event s i e hs hemit
          rw [hview] at hrest
          rw [events_cons_event hemit]
          exact ⟨hadmits, hrest⟩

theorem exists_run (hs : invariant s) {es : List ε}
    (hlegal : Machine.Legal admits apply (view s) es) : ∃ is, events step emit s is = es := by
  induction es generalizing s with
  | nil => exact ⟨[], rfl⟩
  | cons e es ih =>
      obtain ⟨hadmits, hrest⟩ := hlegal
      obtain ⟨i, hemit⟩ := h.complete s e hs hadmits
      rw [← (h.event s i e hs hemit).2] at hrest
      obtain ⟨is, his⟩ := ih (h.keep s i hs) hrest
      exact ⟨i :: is, by rw [events_cons_event hemit, his]⟩

/-- The logs of the runs are those with every event admitted by the replay of
the events before it. -/
theorem log_iff (hs : invariant s) {es : List ε} :
    (∃ is, events step emit s is = es) ↔ Machine.Legal admits apply (view s) es := by
  constructor
  · rintro ⟨is, rfl⟩
    exact h.legal_events hs is
  · exact h.exists_run hs

end Sourced

end EventLog
