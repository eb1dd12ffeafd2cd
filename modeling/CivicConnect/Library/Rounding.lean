import Mathlib.Algebra.Order.Floor.Div
import Mathlib.Order.Closure

/-!
# Rounding up to a multiple

The least multiple from a number on. Division that rounds up and multiplication
are a Galois connection, so that rounding up is a closure operator, of which the
multiples are the closed elements.
-/

namespace Rounding

variable {a m n : ℕ}

def roundUp (a n : ℕ) : ℕ := a * (n ⌈/⌉ a)

def closure (ha : 0 < a) : ClosureOperator ℕ := (gc_mul_ceilDiv ha).closureOperator

theorem closure_apply (ha : 0 < a) (n : ℕ) : closure ha n = roundUp a n := rfl

theorem le_roundUp (ha : 0 < a) (n : ℕ) : n ≤ roundUp a n := (closure ha).le_closure n

theorem dvd_roundUp (a n : ℕ) : a ∣ roundUp a n := Nat.dvd_mul_right a _

theorem roundUp_le_iff (ha : 0 < a) (h : a ∣ m) : roundUp a n ≤ m ↔ n ≤ m := by
  obtain ⟨k, rfl⟩ := h
  rw [roundUp, Nat.mul_le_mul_left_iff ha, ceilDiv_le_iff_le_mul ha]

theorem isLeast_roundUp (ha : 0 < a) (n : ℕ) : IsLeast {m | n ≤ m ∧ a ∣ m} (roundUp a n) :=
  ⟨⟨le_roundUp ha n, dvd_roundUp a n⟩, fun _ h => (roundUp_le_iff ha h.2).mpr h.1⟩

/-- A number lies beyond the rounded one just when some multiple comes first. -/
theorem roundUp_lt_iff (ha : 0 < a) : roundUp a n < m ↔ ∃ k, n ≤ k ∧ k < m ∧ a ∣ k := by
  constructor
  · exact fun h => ⟨roundUp a n, le_roundUp ha n, h, dvd_roundUp a n⟩
  · rintro ⟨k, hle, hlt, hdvd⟩
    exact ((roundUp_le_iff ha hdvd).mpr hle).trans_lt hlt

@[simp] theorem roundUp_zero (a : ℕ) : roundUp a 0 = 0 := by
  rw [roundUp, zero_ceilDiv, Nat.mul_zero]

/-- A larger number is rounded to the same multiple unless it lies beyond it. -/
theorem roundUp_eq_iff (ha : 0 < a) (h : m ≤ n) : roundUp a n = roundUp a m ↔ n ≤ roundUp a m := by
  rw [← closure_apply ha, ← closure_apply ha, (closure ha).le_closure_iff]
  exact ⟨le_of_eq, fun hle => hle.antisymm ((closure ha).monotone h)⟩

end Rounding
