import Mathlib.Algebra.Order.Floor.Semiring
import Mathlib.Data.Int.Log
import Mathlib.Data.Nat.Cast.Order.Field
import Mathlib.Data.Rat.Floor
import Mathlib.Tactic.FieldSimp
import Mathlib.Tactic.Linarith
import Mathlib.Tactic.NormNum
import Mathlib.Tactic.Ring

/-!
# Rounding to binary digits

A rational number is rounded to the nearest one that has a given number of
binary digits, a tie going to the even last digit, and the exponent being of any
size. Nothing with so many digits is nearer, and the error is at most half a
unit in the last place.
-/

namespace BinaryRounding

/-- The nearest integer to a number that is not negative. -/
def roundTiesEven (x : ℚ) : ℕ :=
  let low := ⌊x⌋₊
  let part := x - low
  if part < 1 / 2 then low
  else if 1 / 2 < part then low + 1
  else if low % 2 = 0 then low else low + 1

/-- The unit in the last place of `p` binary digits. -/
def ulp (p : ℕ) (x : ℚ) : ℚ := 2 ^ (Int.log 2 |x| + 1 - p)

def round (p : ℕ) (x : ℚ) : ℚ :=
  let magnitude := roundTiesEven (|x| / ulp p x) * ulp p x
  if x < 0 then -magnitude else magnitude

/-- The number can be written with `p` binary digits. -/
def HasDigits (p : ℕ) (x : ℚ) : Prop := ∃ m e : ℤ, |m| < 2 ^ p ∧ x = m * 2 ^ e

variable {x y : ℚ} {p : ℕ}

theorem floor_le_roundTiesEven (x : ℚ) : ⌊x⌋₊ ≤ roundTiesEven x := by
  rw [roundTiesEven]
  split_ifs <;> omega

theorem roundTiesEven_le (x : ℚ) : roundTiesEven x ≤ ⌊x⌋₊ + 1 := by
  rw [roundTiesEven]
  split_ifs <;> omega

theorem roundTiesEven_sub_half_le (hx : 0 ≤ x) : (roundTiesEven x : ℚ) - 1 / 2 ≤ x := by
  have hfloor : (⌊x⌋₊ : ℚ) ≤ x := Nat.floor_le hx
  rw [roundTiesEven]
  split_ifs <;> push_cast <;> linarith

theorem le_roundTiesEven_add_half (x : ℚ) : x ≤ (roundTiesEven x : ℚ) + 1 / 2 := by
  have hfloor : x < ⌊x⌋₊ + 1 := Nat.lt_floor_add_one x
  rw [roundTiesEven]
  split_ifs <;> push_cast <;> linarith

theorem abs_roundTiesEven_sub_le (hx : 0 ≤ x) : |(roundTiesEven x : ℚ) - x| ≤ 1 / 2 := by
  have hhigh := roundTiesEven_sub_half_le hx
  have hlow := le_roundTiesEven_add_half x
  exact abs_le.mpr ⟨by linarith, by linarith⟩

/-- What lies at most one half below an even number is rounded up to it. -/
theorem roundTiesEven_of_even {m : ℕ} (hx : 0 ≤ x) (hm : m % 2 = 0)
    (hlow : (m : ℚ) - 1 / 2 ≤ x) (hhigh : x ≤ m) : roundTiesEven x = m := by
  rcases hhigh.eq_or_lt with rfl | hlt
  · simp [roundTiesEven]
  · have hpos : 1 ≤ m := by
      by_contra hzero
      obtain rfl : m = 0 := by omega
      exact absurd hlt (not_lt.mpr (by simpa using hx))
    have hcast : ((m - 1 : ℕ) : ℚ) = m - 1 := by rw [Nat.cast_sub hpos, Nat.cast_one]
    have hfloor : ⌊x⌋₊ = m - 1 := by
      rw [Nat.floor_eq_iff hx, hcast]
      constructor <;> linarith
    rw [roundTiesEven, hfloor, hcast, if_neg (by linarith)]
    split_ifs <;> omega

/-- No integer is nearer: one below the floor or above the next integer is at
least as far as these two. -/
theorem roundTiesEven_nearest (hx : 0 ≤ x) (k : ℤ) :
    |(roundTiesEven x : ℚ) - x| ≤ |(k : ℚ) - x| := by
  have hfloor : (⌊x⌋₊ : ℚ) ≤ x := Nat.floor_le hx
  have hnext : x < ⌊x⌋₊ + 1 := Nat.lt_floor_add_one x
  have hdist : min (x - ⌊x⌋₊) (⌊x⌋₊ + 1 - x) ≤ |(k : ℚ) - x| := by
    rcases lt_or_ge (⌊x⌋₊ : ℤ) k with habove | hbelow
    · have hk : (⌊x⌋₊ : ℚ) + 1 ≤ k := by exact_mod_cast Int.add_one_le_of_lt habove
      have habs := le_abs_self ((k : ℚ) - x)
      exact (min_le_right _ _).trans (by linarith)
    · have hk : (k : ℚ) ≤ ⌊x⌋₊ := by exact_mod_cast hbelow
      have habs := neg_abs_le ((k : ℚ) - x)
      exact (min_le_left _ _).trans (by linarith)
  refine le_trans ?_ hdist
  rw [roundTiesEven, le_min_iff]
  split_ifs with hlow hhigh heven
  · rw [abs_of_nonpos (by linarith)]
    constructor <;> linarith
  · push_cast
    rw [abs_of_nonneg (by linarith)]
    constructor <;> linarith
  · rw [abs_of_nonpos (by linarith)]
    constructor <;> linarith
  · push_cast
    rw [abs_of_nonneg (by linarith)]
    constructor <;> linarith

theorem ulp_pos (p : ℕ) (x : ℚ) : 0 < ulp p x := zpow_pos zero_lt_two _

theorem abs_round_sub (p : ℕ) (x : ℚ) :
    |round p x - x| = |(roundTiesEven (|x| / ulp p x) : ℚ) - |x| / ulp p x| * ulp p x := by
  have hpos := ulp_pos p x
  have hscale : ((roundTiesEven (|x| / ulp p x) : ℚ) - |x| / ulp p x) * ulp p x =
      roundTiesEven (|x| / ulp p x) * ulp p x - |x| := by
    rw [sub_mul, div_mul_cancel₀ _ hpos.ne']
  have hmul := abs_mul ((roundTiesEven (|x| / ulp p x) : ℚ) - |x| / ulp p x) (ulp p x)
  rw [hscale, abs_of_pos hpos] at hmul
  rw [← hmul, round]
  split_ifs with hneg
  · rw [abs_of_neg hneg, ← abs_neg]
    congr 1
    ring
  · rw [abs_of_nonneg (not_lt.mp hneg)]

theorem ulp_le (hx : x ≠ 0) (p : ℕ) : ulp p x ≤ 2 * |x| / 2 ^ p := by
  have hlog : (2 : ℚ) ^ Int.log 2 |x| ≤ |x| := by
    exact_mod_cast Int.zpow_log_le_self one_lt_two (abs_pos.mpr hx)
  have hulp : ulp p x = 2 * 2 ^ Int.log 2 |x| / 2 ^ p := by
    rw [ulp, zpow_sub₀ two_ne_zero, zpow_add_one₀ two_ne_zero, zpow_natCast, mul_comm]
  rw [hulp]
  gcongr

/-- The error is at most half a unit in the last place. -/
theorem abs_round_sub_le (p : ℕ) (x : ℚ) : |round p x - x| ≤ |x| / 2 ^ p := by
  rcases eq_or_ne x 0 with rfl | hx
  · simp [round, roundTiesEven]
  · have hpos := ulp_pos p x
    have hhalf := abs_roundTiesEven_sub_le (div_nonneg (abs_nonneg x) hpos.le)
    calc |round p x - x|
        = |(roundTiesEven (|x| / ulp p x) : ℚ) - |x| / ulp p x| * ulp p x := abs_round_sub p x
      _ ≤ 1 / 2 * ulp p x := mul_le_mul_of_nonneg_right hhalf hpos.le
      _ ≤ 1 / 2 * (2 * |x| / 2 ^ p) := mul_le_mul_of_nonneg_left (ulp_le hx p) (by norm_num)
      _ = |x| / 2 ^ p := by ring

/-- A multiple of the unit is no nearer. -/
theorem abs_round_sub_le_of_multiple (p : ℕ) (x : ℚ) (k : ℤ) :
    |round p x - x| ≤ abs (k * ulp p x - |x|) := by
  have hpos := ulp_pos p x
  have hnearest := roundTiesEven_nearest (div_nonneg (abs_nonneg x) hpos.le) k
  calc |round p x - x|
      = |(roundTiesEven (|x| / ulp p x) : ℚ) - |x| / ulp p x| * ulp p x := abs_round_sub p x
    _ ≤ |(k : ℚ) - |x| / ulp p x| * ulp p x := mul_le_mul_of_nonneg_right hnearest hpos.le
    _ = abs (k * ulp p x - |x|) := by
      rw [← abs_of_pos hpos, ← abs_mul, abs_of_pos hpos, sub_mul, div_mul_cancel₀ _ hpos.ne']

/-- Nothing with so many digits is nearer. With an exponent below that of the
unit it lies under the power of two below the rounded number, which is a
multiple of the unit itself. -/
theorem round_nearest (hp : 0 < p) (hx : 0 < x) (h : HasDigits p y) :
    |round p x - x| ≤ |y - x| := by
  obtain ⟨m, e, hm, rfl⟩ := h
  rcases le_or_gt (Int.log 2 |x| + 1 - p) e with hlarge | hsmall
  · have hmultiple : (m : ℚ) * 2 ^ e = (m * 2 ^ (e - (Int.log 2 |x| + 1 - p)).toNat : ℤ) *
        ulp p x := by
      have hexp : e = ((e - (Int.log 2 |x| + 1 - p)).toNat : ℤ) + (Int.log 2 |x| + 1 - p) := by
        omega
      push_cast
      rw [ulp, mul_assoc, ← zpow_natCast, ← zpow_add₀ two_ne_zero, ← hexp]
    have hround := abs_round_sub_le_of_multiple p x (m * 2 ^ (e - (Int.log 2 |x| + 1 - p)).toNat)
    rwa [← hmultiple, abs_of_pos hx] at hround
  · have hpower : (2 : ℚ) ^ Int.log 2 |x| = ((2 : ℤ) ^ (p - 1) : ℤ) * ulp p x := by
      have hexp : Int.log 2 |x| = ((p - 1 : ℕ) : ℤ) + (Int.log 2 |x| + 1 - p) := by omega
      push_cast
      rw [ulp, ← zpow_natCast, ← zpow_add₀ two_ne_zero, ← hexp]
    have hround := abs_round_sub_le_of_multiple p x (2 ^ (p - 1))
    rw [← hpower, abs_of_pos hx] at hround
    have hbelow : (2 : ℚ) ^ Int.log 2 x ≤ x := by
      exact_mod_cast Int.zpow_log_le_self one_lt_two hx
    have hy : (m : ℚ) * 2 ^ e ≤ 2 ^ Int.log 2 x := by
      have hm' : (m : ℚ) ≤ 2 ^ p := by exact_mod_cast (le_abs_self m).trans hm.le
      have hexp : (p : ℤ) + e ≤ Int.log 2 x := by
        rw [abs_of_pos hx] at hsmall
        omega
      calc (m : ℚ) * 2 ^ e
          ≤ 2 ^ p * 2 ^ e := mul_le_mul_of_nonneg_right hm' (zpow_pos zero_lt_two e).le
        _ = 2 ^ ((p : ℤ) + e) := by rw [zpow_add₀ two_ne_zero, zpow_natCast]
        _ ≤ 2 ^ Int.log 2 x := zpow_le_zpow_right₀ one_le_two hexp
    calc |round p x - x| ≤ |2 ^ Int.log 2 x - x| := hround
      _ = x - 2 ^ Int.log 2 x := by rw [abs_sub_comm, abs_of_nonneg (by linarith)]
      _ ≤ x - m * 2 ^ e := by linarith
      _ ≤ |m * 2 ^ e - x| := by rw [abs_sub_comm]; exact le_abs_self _

/-- What is nearer to `y` than to `z` does not reach `z`. -/
theorem round_lt {z : ℚ} (hp : 0 < p) (hx : 0 < x) (hy : HasDigits p y) (hyz : y < z)
    (h : 2 * x < y + z) : round p x < z := by
  by_contra hreached
  have hnearest := round_nearest hp hx hy
  have hcloser : |y - x| < z - x := abs_lt.mpr ⟨by linarith, by linarith⟩
  have hfar : z - x ≤ |round p x - x| :=
    (sub_le_sub_right (not_lt.mp hreached) x).trans (le_abs_self _)
  exact absurd (hfar.trans hnearest) (not_le.mpr hcloser)

end BinaryRounding
