import CivicConnect.Library.BinaryRounding

/-!
# Clock, durations and the limiter configuration

Instants and durations are whole nanoseconds. A float is a rational number, and
the values that are not finite keep a constructor of their own. The threshold of
the burst detector is rounded as the code rounds it; token arithmetic is exact.
-/

namespace CivicConnect.Webmention

open BinaryRounding (roundTiesEven)

abbrev Instant := ℕ

abbrev Duration := ℕ

def nanosPerSec : ℕ := 1000000000

/-- `Instant::duration_since`, which is zero when `earlier` is the later one. -/
def durationSince (later earlier : Instant) : Duration := later - earlier

def fromSecs (secs : ℕ) : Duration := secs * nanosPerSec

def fromMillis (millis : ℕ) : Duration := millis * 1000000

def asSecsF64 (d : Duration) : ℚ := (d : ℚ) / nanosPerSec

def secs (t : Instant) : ℚ := asSecsF64 t

def u32Max : ℕ := 2 ^ 32 - 1

def u64Max : ℕ := 2 ^ 64 - 1

def usizeMax : ℕ := 2 ^ 64 - 1

/-- A call that unwinds instead of returning. -/
inductive Panic where
  | durationFromFloat
  deriving DecidableEq, Repr

/-- `Duration::from_secs_f64`, which panics on a negative, infinite or too
large argument. An infinite quotient is `none`. -/
def fromSecsF64 : Option ℚ → Except Panic Duration
  | none => .error .durationFromFloat
  | some x =>
      let nanos := roundTiesEven (x * nanosPerSec)
      if 0 ≤ x ∧ nanos < (u64Max + 1) * nanosPerSec then .ok nanos
      else .error .durationFromFloat

/-- Float division of a positive number: infinite over zero. -/
def divF64 (x y : ℚ) : Option ℚ := if y = 0 then none else some (x / y)

inductive F32 where
  | finite (q : ℚ)
  | inf
  | negInf
  | nan
  deriving DecidableEq

/-- The result of one operation on doubles, which has 53 binary digits. What is
rounded here stays far from both ends of the range of exponents. -/
def roundF64 (x : ℚ) : ℚ := BinaryRounding.round 53 x

/-- `(max_tokens / 6.0).max(1.0)`. -/
def expectedInWindow (maxTokens : ℚ) : ℚ := max (roundF64 (maxTokens / 6)) 1

/-- `(expected * multiplier).max(3.0) as usize` for a positive `expected`:
`max` prefers a number over NaN and the cast saturates. -/
def F32.threshold (expected : ℚ) : F32 → ℕ
  | finite q => min ⌊max (roundF64 (expected * q)) 3⌋₊ usizeMax
  | inf => usizeMax
  | negInf => 3
  | nan => 3

structure RateLimitConfig where
  maxRateRpm : UInt32
  maxRatePerSource : UInt32
  cooldownOnBurstMs : UInt64
  burstThresholdMultiplier : F32
  windowSecs : UInt64
  deriving DecidableEq

namespace RateLimitConfig

def defaultMaxRateRpm : UInt32 := 60

def defaultMaxRatePerSource : UInt32 := 10

def defaultCooldownMs : UInt64 := 30000

def defaultBurstThreshold : F32 := .finite 3

def defaultWindowSecs : UInt64 := 60

instance : Inhabited RateLimitConfig where
  default := ⟨defaultMaxRateRpm, defaultMaxRatePerSource, defaultCooldownMs,
    defaultBurstThreshold, defaultWindowSecs⟩

def cooldownDuration (config : RateLimitConfig) : Duration :=
  fromMillis config.cooldownOnBurstMs.toNat

def windowDuration (config : RateLimitConfig) : Duration := fromSecs config.windowSecs.toNat

end RateLimitConfig

theorem secs_mono : Monotone secs := fun _ _ h =>
  div_le_div_of_nonneg_right (Nat.cast_le.mpr h) (Nat.cast_nonneg _)

theorem secs_add (t d : ℕ) : secs (t + d) = secs t + asSecsF64 d := by
  simp [secs, asSecsF64, add_div]

theorem asSecsF64_durationSince {earlier later : Instant} (h : earlier ≤ later) :
    asSecsF64 (durationSince later earlier) = secs later - secs earlier := by
  simp [secs, asSecsF64, durationSince, Nat.cast_sub h, sub_div]

theorem asSecsF64_fromSecs (n : ℕ) : asSecsF64 (fromSecs n) = n := by
  simp [asSecsF64, fromSecs, nanosPerSec]

end CivicConnect.Webmention
