import Mathlib.Algebra.BigOperators.Group.Finset.Piecewise
import Mathlib.Algebra.Order.BigOperators.Group.Finset

/-!
# Ledgers

A ledger gives every account a natural number. A move takes an amount from one
account and then adds it to another one, which may be the same. It keeps the
sum, and only the account that it takes from can lose.
-/

universe u

namespace Ledger

variable {A : Type u} [DecidableEq A]

/-- The ledger after taking `v` from `src` and adding it to `dst`. -/
def move (f : A → ℕ) (src dst : A) (v : ℕ) : A → ℕ :=
  let debited := Function.update f src (f src - v)
  Function.update debited dst (debited dst + v)

variable {f : A → ℕ} {src dst : A} {v : ℕ}

theorem move_le_of_ne {a : A} (h : a ≠ dst) : move f src dst v a ≤ f a := by
  rw [move, Function.update_of_ne h, Function.update_apply]
  split_ifs with hsrc
  · rw [hsrc]
    exact Nat.sub_le _ _
  · exact Nat.le_refl _

variable [Fintype A]

theorem sum_update_add (f : A → ℕ) (a : A) (n : ℕ) :
    ∑ b, Function.update f a n b + f a = ∑ b, f b + n := by
  rw [Finset.sum_update_of_mem (Finset.mem_univ a)]
  have hsum := Finset.add_sum_erase Finset.univ f (Finset.mem_univ a)
  rw [Finset.sdiff_singleton_eq_erase]
  omega

theorem sum_debit (h : v ≤ f src) :
    ∑ a, Function.update f src (f src - v) a + v = ∑ a, f a := by
  have hsum := sum_update_add f src (f src - v)
  omega

/-- A move of an amount that the account holds keeps the sum. -/
theorem sum_move (h : v ≤ f src) : ∑ a, move f src dst v a = ∑ a, f a := by
  have hdebit := sum_debit h
  have hcredit := sum_update_add (Function.update f src (f src - v)) dst
    (Function.update f src (f src - v) dst + v)
  rw [move]
  omega

omit [DecidableEq A] in
theorem le_sum (f : A → ℕ) (a : A) : f a ≤ ∑ b, f b :=
  Finset.single_le_sum (fun _ _ => Nat.zero_le _) (Finset.mem_univ a)

/-- What the credited account holds after a move is within the sum. -/
theorem credit_le_sum (h : v ≤ f src) (dst : A) :
    Function.update f src (f src - v) dst + v ≤ ∑ a, f a := by
  have hdebit := sum_debit h
  have hle := le_sum (Function.update f src (f src - v)) dst
  omega

end Ledger
