import CivicConnect.Webmention.Config
import Mathlib.Algebra.Order.Group.MinMax
import Mathlib.Data.ENat.Basic

/-!
# The burst threshold and its formula

The threshold of the burst detector is rounded twice on the way. For a
multiplier of single precision and a moderate rate it is what its formula says
or one less: what keeps a product of so few digits below an integer is more than
the two errors can make up for.
-/

namespace CivicConnect.Webmention

open BinaryRounding

/-- The threshold before the cast: no number of requests exceeds an infinite
multiplier. -/
def RateLimitConfig.burstLimit (config : RateLimitConfig) : ℕ∞ :=
  match config.burstThresholdMultiplier with
  | .finite q => ⌊max (roundF64 (expectedInWindow config.maxRateRpm.toNat * q)) 3⌋₊
  | .inf => ⊤
  | .negInf => 3
  | .nan => 3

/-- The formula of the threshold, without any rounding on the way. -/
def RateLimitConfig.burstFormula (config : RateLimitConfig) : ℕ∞ :=
  match config.burstThresholdMultiplier with
  | .finite q => ⌊max (max ((config.maxRateRpm.toNat : ℚ) / 6) 1 * q) 3⌋₊
  | .inf => ⊤
  | .negInf => 3
  | .nan => 3

/-- A multiplier of single precision, where it is a number. -/
def F32.Single (multiplier : F32) : Prop := ∀ q, multiplier = .finite q → HasDigits 24 q

variable {q : ℚ} {r : ℕ}

theorem one_le_expectedInWindow (maxTokens : ℚ) : 1 ≤ expectedInWindow maxTokens :=
  le_max_right _ _

theorem abs_expectedInWindow_sub_le (r : ℕ) :
    |expectedInWindow r - max ((r : ℚ) / 6) 1| ≤ max ((r : ℚ) / 6) 1 / 2 ^ 53 := by
  have hsixth : (0 : ℚ) ≤ r / 6 := by positivity
  calc |expectedInWindow r - max ((r : ℚ) / 6) 1|
      ≤ |roundF64 ((r : ℚ) / 6) - r / 6| := abs_max_sub_max_le_abs _ _ _
    _ ≤ |(r : ℚ) / 6| / 2 ^ 53 := abs_round_sub_le 53 _
    _ = (r : ℚ) / 6 / 2 ^ 53 := by rw [abs_of_nonneg hsixth]
    _ ≤ max ((r : ℚ) / 6) 1 / 2 ^ 53 := by gcongr; exact le_max_left _ _

/-- Below a number that is not too large there is one of 53 digits that lies at
most one part in `2 ^ 52` away. -/
theorem exists_hasDigits_lt {n : ℕ} (hpos : 0 < n) (hsmall : n < 2 ^ 53) :
    ∃ y : ℚ, HasDigits 53 y ∧ y < n ∧ (n : ℚ) - n / 2 ^ 52 ≤ y := by
  have hlow : 2 ^ Nat.log 2 n ≤ n := Nat.pow_log_le_self 2 hpos.ne'
  have hhigh : n < 2 ^ (Nat.log 2 n + 1) := Nat.lt_pow_succ_log_self one_lt_two n
  have hlog : Nat.log 2 n ≤ 52 := Nat.lt_succ_iff.mp (Nat.log_lt_of_lt_pow hpos.ne' hsmall)
  obtain ⟨j, hj⟩ := Nat.exists_eq_add_of_le hlog
  have hdigits : n * 2 ^ j < 2 ^ 53 := by
    calc n * 2 ^ j < 2 ^ (Nat.log 2 n + 1) * 2 ^ j :=
          Nat.mul_lt_mul_of_pos_right hhigh (by positivity)
      _ = 2 ^ 53 := by rw [← pow_add]; congr 1; omega
  have hone : 1 ≤ n * 2 ^ j := Nat.mul_pos hpos (by positivity)
  have hunit : (2 : ℚ) ^ (-(j : ℤ)) = 1 / 2 ^ j := by rw [zpow_neg, zpow_natCast, one_div]
  refine ⟨n - 1 / 2 ^ j, ⟨n * 2 ^ j - 1, -j, ?_, ?_⟩, ?_, ?_⟩
  · have hlow' : (1 : ℤ) ≤ n * 2 ^ j := by exact_mod_cast hone
    have hhigh' : (n : ℤ) * 2 ^ j < 2 ^ 53 := by exact_mod_cast hdigits
    rw [abs_of_nonneg (by omega)]
    omega
  · push_cast
    rw [hunit]
    field_simp
  · have hunit : (0 : ℚ) < 1 / 2 ^ j := by positivity
    linarith
  · have hle : (1 : ℚ) / 2 ^ j ≤ n / 2 ^ 52 := by
      rw [div_le_div_iff₀ (by positivity) (by positivity), one_mul]
      calc (2 : ℚ) ^ 52 = 2 ^ Nat.log 2 n * 2 ^ j := by rw [← pow_add, ← hj]
        _ ≤ n * 2 ^ j := by
          gcongr
          exact_mod_cast hlow
    linarith

/-- A fraction of few digits that stays below an integer stays below it after
both roundings. -/
theorem round_mul_lt {a d n : ℕ} {e : ℚ} (hn : 0 < n) (hsmall : n < 2 ^ 53) (ha : a < 2 ^ 52)
    (hd : 0 < d) (hlt : a < n * d) (hpos : 0 < e * q)
    (he : e * q ≤ a / d * (1 + 1 / 2 ^ 53)) : roundF64 (e * q) < n := by
  obtain ⟨y, hy, hyn, hnear⟩ := exists_hasDigits_lt hn hsmall
  refine round_lt (by decide) hpos hy hyn ?_
  have hd' : (0 : ℚ) < d := by exact_mod_cast hd
  have ha' : (a : ℚ) + 1 ≤ 2 ^ 52 := by exact_mod_cast ha
  have hgap : (a + 1 : ℚ) / d ≤ n := by
    rw [div_le_iff₀ hd']
    exact_mod_cast hlt
  have hroom : (a : ℚ) * (1 + 1 / 2 ^ 53) < (a + 1) * (1 - 1 / 2 ^ 53) := by
    norm_num at ha' ⊢
    linarith
  calc 2 * (e * q)
      ≤ 2 * (a / d * (1 + 1 / 2 ^ 53)) := by linarith
    _ = 2 * (a * (1 + 1 / 2 ^ 53) / d) := by ring
    _ < 2 * ((a + 1) * (1 - 1 / 2 ^ 53) / d) := by gcongr
    _ = 2 * ((a + 1) / d * (1 - 1 / 2 ^ 53)) := by ring
    _ ≤ 2 * (n * (1 - 1 / 2 ^ 53)) := by
      gcongr
    _ = n - n / 2 ^ 52 + n := by ring
    _ ≤ y + n := by linarith

/-- The product as a fraction of few digits. -/
theorem exists_fraction (hr : r < 2 ^ 28) (hq : HasDigits 24 q) (hpos : 0 < q)
    (hsmall : max ((r : ℚ) / 6) 1 * q < 2 ^ 49) :
    ∃ a d : ℕ, 0 < d ∧ a < 2 ^ 52 ∧ max ((r : ℚ) / 6) 1 * q = a / d := by
  obtain ⟨m, k, hm, rfl⟩ := hq
  have hmpos : 0 < m := by
    have hpower : (0 : ℚ) < 2 ^ k := zpow_pos zero_lt_two k
    exact_mod_cast pos_of_mul_pos_left hpos hpower.le
  lift m to ℕ using hmpos.le
  rw [Nat.abs_cast] at hm
  have hsixths : max ((r : ℚ) / 6) 1 = ((max r 6 : ℕ) : ℚ) / 6 := by
    rw [Nat.cast_max, ← max_div_div_right (by norm_num : (0 : ℚ) ≤ 6)]
    norm_num
  rw [hsixths] at hsmall ⊢
  obtain ⟨j, rfl | rfl⟩ := Int.eq_nat_or_neg k
  · refine ⟨max r 6 * (m * 2 ^ j), 6, by decide, ?_, ?_⟩
    · rw [div_mul_eq_mul_div, div_lt_iff₀ (by norm_num)] at hsmall
      have hcast : ((max r 6 * (m * 2 ^ j) : ℕ) : ℚ) < 2 ^ 52 := by
        push_cast at hsmall ⊢
        norm_num at hsmall ⊢
        linarith
      exact_mod_cast hcast
    · push_cast
      rw [zpow_natCast, div_mul_eq_mul_div]
  · refine ⟨max r 6 * m, 6 * 2 ^ j, by positivity, ?_, ?_⟩
    · have hm' : m < 2 ^ 24 := by exact_mod_cast hm
      have hr' : max r 6 < 2 ^ 28 := max_lt hr (by decide)
      calc max r 6 * m < 2 ^ 28 * 2 ^ 24 := Nat.mul_lt_mul'' hr' hm'
        _ = 2 ^ 52 := by norm_num
    · push_cast
      rw [zpow_neg, zpow_natCast]
      field_simp

theorem roundF64_nonpos {x : ℚ} (hx : x ≤ 0) : roundF64 x ≤ 0 := by
  rcases hx.eq_or_lt with rfl | hneg
  · decide +kernel
  · rw [roundF64, BinaryRounding.round, if_pos hneg, neg_nonpos]
    exact mul_nonneg (Nat.cast_nonneg _) (ulp_pos _ _).le

/-- The window before the multiplication is one part in `2 ^ 53` off at most. -/
theorem expectedInWindow_mul_near (hpos : 0 < q) :
    max ((r : ℚ) / 6) 1 * q * (1 - 1 / 2 ^ 53) ≤ expectedInWindow r * q ∧
      expectedInWindow r * q ≤ max ((r : ℚ) / 6) 1 * q * (1 + 1 / 2 ^ 53) := by
  obtain ⟨herrLow, herrHigh⟩ := abs_le.mp (abs_expectedInWindow_sub_le r)
  constructor
  · calc max ((r : ℚ) / 6) 1 * q * (1 - 1 / 2 ^ 53)
        = (max ((r : ℚ) / 6) 1 - max ((r : ℚ) / 6) 1 / 2 ^ 53) * q := by ring
      _ ≤ expectedInWindow r * q := by
        gcongr
        linarith
  · calc expectedInWindow r * q
        ≤ (max ((r : ℚ) / 6) 1 + max ((r : ℚ) / 6) 1 / 2 ^ 53) * q := by
          gcongr
          linarith
      _ = max ((r : ℚ) / 6) 1 * q * (1 + 1 / 2 ^ 53) := by ring

theorem expectedInWindow_mul_pos (hpos : 0 < q) : 0 < expectedInWindow r * q :=
  mul_pos (zero_lt_one.trans_le (one_le_expectedInWindow _)) hpos

/-- Two roundings take less than one from a product of this size. -/
theorem sub_one_le_roundF64 (hpos : 0 < q) (hproduct : max ((r : ℚ) / 6) 1 * q < 2 ^ 49) :
    max ((r : ℚ) / 6) 1 * q - 1 ≤ roundF64 (expectedInWindow r * q) := by
  obtain ⟨hlower, _⟩ := expectedInWindow_mul_near (r := r) hpos
  obtain ⟨hround, _⟩ := abs_le.mp (abs_round_sub_le 53 (expectedInWindow r * q))
  rw [abs_of_pos (expectedInWindow_mul_pos hpos)] at hround
  have hnext : expectedInWindow r * q * (1 - 1 / 2 ^ 53) ≤ roundF64 (expectedInWindow r * q) := by
    rw [roundF64]
    linarith
  norm_num at hnext hlower hproduct ⊢
  linarith

/-- The floor of the rounded product is that of the product or one less. -/
theorem floor_round_near (hr : r < 2 ^ 28) (hq : HasDigits 24 q)
    (hsmall : ⌊max (max ((r : ℚ) / 6) 1 * q) 3⌋₊ < 2 ^ 49) :
    ⌊max (roundF64 (expectedInWindow r * q)) 3⌋₊ ≤ ⌊max (max ((r : ℚ) / 6) 1 * q) 3⌋₊ ∧
      ⌊max (max ((r : ℚ) / 6) 1 * q) 3⌋₊ ≤
        ⌊max (roundF64 (expectedInWindow r * q)) 3⌋₊ + 1 := by
  have hone : 1 ≤ max ((r : ℚ) / 6) 1 := le_max_right _ _
  have hwindow := one_le_expectedInWindow (r : ℚ)
  rcases le_or_gt q 0 with hneg | hpos
  · have hexact : max ((r : ℚ) / 6) 1 * q ≤ 0 :=
      mul_nonpos_of_nonneg_of_nonpos (by linarith) hneg
    have hrounded : roundF64 (expectedInWindow r * q) ≤ 0 :=
      roundF64_nonpos (mul_nonpos_of_nonneg_of_nonpos (by linarith) hneg)
    rw [max_eq_right (by linarith), max_eq_right (by linarith)]
    exact ⟨le_rfl, Nat.le_succ _⟩
  · have hfloor := Nat.lt_floor_add_one (max (max ((r : ℚ) / 6) 1 * q) 3)
    have hproduct : max ((r : ℚ) / 6) 1 * q < 2 ^ 49 := by
      have hcast : ((⌊max (max ((r : ℚ) / 6) 1 * q) 3⌋₊ + 1 : ℕ) : ℚ) ≤ 2 ^ 49 := by
        exact_mod_cast hsmall
      push_cast at hcast
      exact (le_max_left _ _).trans_lt (hfloor.trans_le hcast)
    constructor
    · obtain ⟨a, d, hd, ha, hfraction⟩ := exists_fraction hr hq hpos hproduct
      have hupper := (expectedInWindow_mul_near (r := r) hpos).2
      rw [hfraction] at hupper
      rw [← Nat.lt_succ_iff, Nat.floor_lt (le_max_of_le_right (by norm_num)), max_lt_iff]
      have hthree : 3 ≤ ⌊max (max ((r : ℚ) / 6) 1 * q) 3⌋₊ := Nat.le_floor (le_max_right _ _)
      refine ⟨round_mul_lt (Nat.succ_pos _) (by omega) ha hd ?_ (expectedInWindow_mul_pos hpos)
        hupper, ?_⟩
      · have hd' : (0 : ℚ) < d := by exact_mod_cast hd
        have hlt := hfraction.symm.trans_lt ((le_max_left _ 3).trans_lt hfloor)
        rw [div_lt_iff₀ hd'] at hlt
        exact_mod_cast hlt
      · exact_mod_cast Nat.lt_succ_of_le hthree
    · rw [← Nat.floor_add_one (le_max_of_le_right (by norm_num))]
      refine Nat.floor_le_floor (max_le ?_ ?_)
      · exact (sub_le_iff_le_add.mp (sub_one_le_roundF64 hpos hproduct)).trans
          (add_le_add_left (le_max_left _ _) 1)
      · exact (le_max_right _ _).trans (le_add_of_nonneg_right zero_le_one)

variable {config : RateLimitConfig}

/-- Rounding does not lift the threshold above its formula. -/
theorem burstLimit_le_burstFormula (hsingle : config.burstThresholdMultiplier.Single)
    (hrate : config.maxRateRpm.toNat < 2 ^ 28) (hsmall : config.burstFormula < 2 ^ 49) :
    config.burstLimit ≤ config.burstFormula := by
  unfold RateLimitConfig.burstLimit
  unfold RateLimitConfig.burstFormula at hsmall ⊢
  cases hmultiplier : config.burstThresholdMultiplier with
  | finite q =>
      rw [hmultiplier] at hsmall
      dsimp only at hsmall ⊢
      exact_mod_cast (floor_round_near hrate (hsingle q hmultiplier) (by exact_mod_cast hsmall)).1
  | inf => exact le_rfl
  | negInf => exact le_rfl
  | nan => exact le_rfl

theorem burstFormula_le_burstLimit_add_one (hsingle : config.burstThresholdMultiplier.Single)
    (hrate : config.maxRateRpm.toNat < 2 ^ 28) (hsmall : config.burstFormula < 2 ^ 49) :
    config.burstFormula ≤ config.burstLimit + 1 := by
  unfold RateLimitConfig.burstLimit
  unfold RateLimitConfig.burstFormula at hsmall ⊢
  cases hmultiplier : config.burstThresholdMultiplier with
  | finite q =>
      rw [hmultiplier] at hsmall
      dsimp only at hsmall ⊢
      exact_mod_cast (floor_round_near hrate (hsingle q hmultiplier) (by exact_mod_cast hsmall)).2
  | inf => exact le_self_add
  | negInf => exact le_self_add
  | nan => exact le_self_add

/-- The rounded threshold is its formula or one less. -/
theorem burstLimit_near_formula (hsingle : config.burstThresholdMultiplier.Single)
    (hrate : config.maxRateRpm.toNat < 2 ^ 28) (hsmall : config.burstFormula < 2 ^ 49) :
    config.burstLimit = config.burstFormula ∨ config.burstLimit + 1 = config.burstFormula := by
  have hle := burstLimit_le_burstFormula hsingle hrate hsmall
  rcases hle.eq_or_lt with heq | hlt
  · exact .inl heq
  · exact .inr ((Order.add_one_le_of_lt hlt).antisymm
      (burstFormula_le_burstLimit_add_one hsingle hrate hsmall))

/-- A sixth of the rate times the multiplier is 117, and less after rounding. -/
def roundedConfig : RateLimitConfig :=
  { (default : RateLimitConfig) with
    maxRateRpm := 208
    burstThresholdMultiplier := .finite (27 / 8) }

theorem burstFormula_roundedConfig : roundedConfig.burstFormula = 117 := by
  have hfloor : ⌊max (max ((208 : ℚ) / 6) 1 * (27 / 8)) 3⌋₊ = 117 := by norm_num
  exact congrArg Nat.cast hfloor

theorem burstLimit_roundedConfig : roundedConfig.burstLimit = 116 := by
  have hfloor : ⌊max (roundF64 (expectedInWindow 208 * (27 / 8))) 3⌋₊ = 116 := by decide +kernel
  exact congrArg Nat.cast hfloor

/-- Here the limit is not the value of the formula. -/
theorem burstLimit_near_formula_rounded :
    roundedConfig.burstThresholdMultiplier.Single ∧ roundedConfig.maxRateRpm.toNat < 2 ^ 28 ∧
      roundedConfig.burstFormula < 2 ^ 49 ∧
        roundedConfig.burstLimit + 1 = roundedConfig.burstFormula := by
  have hsingle : roundedConfig.burstThresholdMultiplier.Single := by
    intro q hq
    obtain rfl : (27 / 8 : ℚ) = q := F32.finite.inj hq
    exact ⟨27, -3, by norm_num, by norm_num⟩
  have hrate : roundedConfig.maxRateRpm.toNat < 2 ^ 28 := by decide
  have hsmall : roundedConfig.burstFormula < 2 ^ 49 := by
    rw [burstFormula_roundedConfig]
    norm_num
  have hne : roundedConfig.burstLimit ≠ roundedConfig.burstFormula := by
    rw [burstLimit_roundedConfig, burstFormula_roundedConfig]
    decide
  exact ⟨hsingle, hrate, hsmall, (burstLimit_near_formula hsingle hrate hsmall).resolve_left hne⟩

end CivicConnect.Webmention
