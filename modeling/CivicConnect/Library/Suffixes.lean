import Mathlib.Data.List.DropRight
import Mathlib.Data.List.Infix
import Mathlib.Order.Closure

/-!
# The order of suffixes

A list lies below the lists that it ends in. Keeping the last entries of a list,
and one more where the last ones are known, is a closure operator for this
order: what is kept of a list is kept of each suffix that still has it.
-/

namespace Suffixes

variable {α : Type*} {known : List α → Bool} {n : ℕ} {l m : List α}

/-- Lists under the order in which the empty list is the greatest one. -/
def BySuffix (α : Type*) := List α

instance : PartialOrder (BySuffix α) where
  le l m := List.IsSuffix m l
  le_refl l := List.suffix_refl l
  le_trans _ _ _ hlm hmk := List.IsSuffix.trans hmk hlm
  le_antisymm _ _ hlm hml := hml.eq_of_length (hml.length_le.antisymm hlm.length_le)

def keep (known : List α → Bool) (n : ℕ) (l : List α) : List α :=
  if known (l.rtake n) then l.rtake (n + 1) else l.rtake n

theorem rtake_suffix (l : List α) (n : ℕ) : l.rtake n <:+ l := List.drop_suffix _ l

theorem rtake_eq_self (h : l.length ≤ n) : l.rtake n = l := by
  rw [List.rtake, Nat.sub_eq_zero_of_le h, List.drop_zero]

theorem rtake_reverse (l : List α) (n : ℕ) : l.reverse.rtake n = (l.take n).reverse := by
  rw [List.rtake_eq_reverse_take_reverse, List.reverse_reverse]

theorem length_rtake (l : List α) (n : ℕ) : (l.rtake n).length = min n l.length := by
  rw [List.rtake, List.length_drop]
  omega

theorem suffix_rtake (h : m <:+ l) (hlength : m.length ≤ n) : m <:+ l.rtake n := by
  apply List.suffix_of_suffix_length_le h (rtake_suffix l n)
  rw [length_rtake]
  exact le_min hlength h.length_le

theorem rtake_suffix_rtake (l : List α) {k : ℕ} (h : k ≤ n) : l.rtake k <:+ l.rtake n := by
  apply suffix_rtake (rtake_suffix l k)
  rw [length_rtake]
  exact (min_le_left _ _).trans h

/-- The last entries are those of any suffix that has as many. -/
theorem rtake_eq_of_suffix (h : m <:+ l) (hlength : n ≤ m.length) : l.rtake n = m.rtake n := by
  have hsuffix : m.rtake n <:+ l.rtake n := by
    apply suffix_rtake ((rtake_suffix m n).trans h)
    rw [length_rtake]
    exact min_le_left _ _
  apply (hsuffix.eq_of_length _).symm
  rw [length_rtake, length_rtake, min_eq_left hlength, min_eq_left (hlength.trans h.length_le)]

theorem rtake_suffix_keep (known : List α → Bool) (n : ℕ) (l : List α) :
    l.rtake n <:+ keep known n l := by
  rw [keep]
  split
  · exact rtake_suffix_rtake l n.le_succ
  · exact List.suffix_refl _

theorem keep_suffix (known : List α → Bool) (n : ℕ) (l : List α) : keep known n l <:+ l := by
  rw [keep]
  split
  · exact rtake_suffix l (n + 1)
  · exact rtake_suffix l n

/-- A list that ends in what another one keeps, keeps it too. -/
theorem keep_suffix_keep (h : keep known n m <:+ l) : keep known n m <:+ keep known n l := by
  by_cases hshort : (keep known n m).length ≤ n
  · exact (suffix_rtake h hshort).trans (rtake_suffix_keep known n l)
  · -- More than `n` entries are kept of a known ending only, which `l` shares.
    have hknown : known (m.rtake n) = true := by
      by_contra hno
      rw [keep, if_neg hno, length_rtake] at hshort
      exact hshort (min_le_left _ _)
    have hlong : n ≤ (keep known n m).length := (not_le.mp hshort).le
    have hending : l.rtake n = m.rtake n := by
      rw [rtake_eq_of_suffix h hlong, rtake_eq_of_suffix (keep_suffix known n m) hlong]
    have hkeep : keep known n l = l.rtake (n + 1) := by rw [keep, hending, if_pos hknown]
    rw [hkeep]
    apply suffix_rtake h
    rw [keep, if_pos hknown, length_rtake]
    exact min_le_left _ _

def closure (known : List α → Bool) (n : ℕ) : ClosureOperator (BySuffix α) :=
  .mk₂ (keep known n) (keep_suffix known n) fun _ _ h => keep_suffix_keep h

theorem keep_idem (known : List α → Bool) (n : ℕ) (l : List α) :
    keep known n (keep known n l) = keep known n l :=
  (closure known n).idempotent l

/-- Nothing changes when entries are put before those that are kept. -/
theorem keep_eq_keep (h : m <:+ l) (hkeep : keep known n l <:+ m) :
    keep known n m = keep known n l :=
  le_antisymm (α := BySuffix α) ((closure known n).le_closure_iff.mp hkeep)
    ((closure known n).monotone h)

/-- A suffix has what is kept where it has `n` entries, and more if the last
ones are known. -/
theorem keep_suffix_of_length (h : m <:+ l) (hlength : n ≤ m.length)
    (hknown : known (m.rtake n) = true → n < m.length) : keep known n l <:+ m := by
  rw [keep, rtake_eq_of_suffix h hlength]
  split
  · next hending =>
      rw [rtake_eq_of_suffix h (hknown hending)]
      exact rtake_suffix m (n + 1)
  · exact rtake_suffix m n

end Suffixes
