import CivicConnect.Library.Machine
import Mathlib.Data.List.Perm.Basic

/-!
# Machines whose inputs commute

When two neighbouring inputs may be exchanged, up to an equivalence of states
that later inputs cannot tell apart, the order of the whole run is immaterial:
it ends in equivalent states and emits the same outputs, in another order.
-/

namespace Machine

variable {σ ι ο α : Type*}

/-- Inputs commute up to `R`, as far as `see` shows the outputs. -/
structure Commutes (step : σ → ι → σ × ο) (R : σ → σ → Prop) (see : ο → α) : Prop where
  equivalence : Equivalence R
  congr : ∀ {s t}, R s t → ∀ i,
    R (step s i).1 (step t i).1 ∧ see (step s i).2 = see (step t i).2
  swap : ∀ s i j, R (step (step s i).1 j).1 (step (step s j).1 i).1 ∧
    [see (step s i).2, see (step (step s i).1 j).2].Perm
      [see (step s j).2, see (step (step s j).1 i).2]

variable {step : σ → ι → σ × ο} {R : σ → σ → Prop} {see : ο → α}

/-- Equivalent states stay equivalent and show the same outputs. -/
theorem Commutes.run_congr (h : Commutes step R see) {s t : σ} (hst : R s t) (is : List ι) :
    R (final step s is) (final step t is) ∧
      (trace step s is).map see = (trace step t is).map see := by
  induction is generalizing s t with
  | nil => exact ⟨hst, rfl⟩
  | cons i is ih =>
      obtain ⟨hnext, hout⟩ := h.congr hst i
      obtain ⟨hend, hrest⟩ := ih hnext
      refine ⟨hend, ?_⟩
      rw [trace_cons, trace_cons, List.map_cons, List.map_cons, hout, hrest]

theorem Commutes.run_perm (h : Commutes step R see) {is js : List ι} (hperm : is.Perm js)
    {s t : σ} (hst : R s t) :
    R (final step s is) (final step t js) ∧
      ((trace step s is).map see).Perm ((trace step t js).map see) := by
  induction hperm generalizing s t with
  | nil => exact ⟨hst, List.Perm.refl _⟩
  | cons i _ ih =>
      obtain ⟨hnext, hout⟩ := h.congr hst i
      obtain ⟨hend, hrest⟩ := ih hnext
      refine ⟨hend, ?_⟩
      rw [trace_cons, trace_cons, List.map_cons, List.map_cons, hout]
      exact hrest.cons _
  | swap i j is =>
      obtain ⟨hone, hout⟩ := h.congr hst j
      obtain ⟨htwo, hout'⟩ := h.congr hone i
      obtain ⟨hcross, houts⟩ := h.swap t j i
      obtain ⟨hend, hrest⟩ := h.run_congr (h.equivalence.trans htwo hcross) is
      refine ⟨hend, ?_⟩
      simp only [trace_cons, List.map_cons, hout, hout', hrest]
      exact houts.append_right _
  | trans _ _ ih ih' =>
      obtain ⟨hend, hperm⟩ := ih hst
      obtain ⟨hend', hperm'⟩ := ih' (h.equivalence.refl t)
      exact ⟨h.equivalence.trans hend hend', hperm.trans hperm'⟩

end Machine
