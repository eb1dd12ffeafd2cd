import Mathlib.Data.List.Pairwise
import Mathlib.Order.Bounds.Basic
import Mathlib.Order.UpperLower.Basic

/-!
# Searches from above

The first hit in a decreasing list is the greatest one. A search below the
greatest member of a lower set finds the greatest member of an intersection.
-/

namespace Searching

variable {α : Type*} [LinearOrder α]

theorem isGreatest_of_find? {l : List α} (hl : l.Pairwise (· > ·)) {p : α → Bool} {a : α}
    (h : l.find? p = some a) : IsGreatest {b | b ∈ l ∧ p b = true} a := by
  refine ⟨⟨List.mem_of_find?_eq_some h, List.find?_some h⟩, ?_⟩
  rintro b ⟨hmem, hb⟩
  induction l with
  | nil => simp at h
  | cons c l ih =>
      obtain ⟨hhead, htail⟩ := List.pairwise_cons.mp hl
      cases hc : p c with
      | true =>
          rw [List.find?_cons_of_pos hc] at h
          obtain rfl := Option.some.inj h
          rcases List.mem_cons.mp hmem with rfl | hmem
          · exact le_refl b
          · exact (hhead b hmem).le
      | false =>
          rw [List.find?_cons_of_neg (by simp [hc])] at h
          rcases List.mem_cons.mp hmem with rfl | hmem
          · simp [hc] at hb
          · exact ih htail h hmem

theorem isGreatest_inter {s t : Set α} (hs : IsLowerSet s) {a b : α} (ha : IsGreatest s a)
    (hb : IsGreatest (Set.Iic a ∩ t) b) : IsGreatest (s ∩ t) b := by
  obtain ⟨⟨hle, hbt⟩, hbound⟩ := hb
  refine ⟨⟨hs hle ha.1, hbt⟩, ?_⟩
  rintro c ⟨hcs, hct⟩
  exact hbound ⟨ha.2 hcs, hct⟩

end Searching
