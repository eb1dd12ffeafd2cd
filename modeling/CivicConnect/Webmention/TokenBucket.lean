import CivicConnect.Webmention.Config
import CivicConnect.Library.RateWindow

/-!
# The token bucket

One bucket belongs to one address or one source key. It is refilled lazily,
when a request asks for a token, and it keeps the times of the requests it
admitted for burst detection.
-/

namespace CivicConnect.Webmention

structure TokenBucket where
  tokens : ℚ
  maxTokens : ℚ
  refillRate : ℚ
  lastRefill : Instant
  requestTimes : List Instant
  deriving DecidableEq

/-- The timestamps that burst detection retains at `now`. -/
def isRecent (now t : Instant) : Bool := durationSince now t < fromSecs 10

namespace TokenBucket

def new (maxRatePerMinute : UInt32) (now : Instant) : TokenBucket :=
  let maxTokens : ℚ := maxRatePerMinute.toNat
  { tokens := maxTokens
    maxTokens := maxTokens
    refillRate := maxTokens / 60
    lastRefill := now
    requestTimes := [] }

def refill (b : TokenBucket) (now : Instant) : TokenBucket :=
  let elapsed := asSecsF64 (durationSince now b.lastRefill)
  { b with
    tokens := min (b.tokens + elapsed * b.refillRate) b.maxTokens
    lastRefill := now }

def tryConsume (b : TokenBucket) (now : Instant) : TokenBucket × Bool :=
  let b := b.refill now
  if 1 ≤ b.tokens then
    ({ b with tokens := b.tokens - 1, requestTimes := b.requestTimes ++ [now] }, true)
  else (b, false)

def remaining (b : TokenBucket) : ℕ := min ⌊b.tokens⌋₊ u32Max

def timeUntilAvailable (b : TokenBucket) : Except Panic Duration :=
  if 1 ≤ b.tokens then .ok 0 else fromSecsF64 (divF64 (1 - b.tokens) b.refillRate)

def burstThreshold (b : TokenBucket) (thresholdMultiplier : F32) : ℕ :=
  thresholdMultiplier.threshold (expectedInWindow b.maxTokens)

def detectBurst (b : TokenBucket) (thresholdMultiplier : F32) (now : Instant) :
    TokenBucket × Bool :=
  let b := { b with requestTimes := b.requestTimes.filter (isRecent now) }
  (b, b.burstThreshold thresholdMultiplier < b.requestTimes.length)

@[simp] theorem refill_maxTokens (b : TokenBucket) (now : Instant) :
    (b.refill now).maxTokens = b.maxTokens := rfl

@[simp] theorem refill_refillRate (b : TokenBucket) (now : Instant) :
    (b.refill now).refillRate = b.refillRate := rfl

@[simp] theorem refill_requestTimes (b : TokenBucket) (now : Instant) :
    (b.refill now).requestTimes = b.requestTimes := rfl

@[simp] theorem refill_lastRefill (b : TokenBucket) (now : Instant) :
    (b.refill now).lastRefill = now := rfl

def paid (b : TokenBucket) (now : Instant) : TokenBucket :=
  { b.refill now with
    tokens := (b.refill now).tokens - 1
    requestTimes := b.requestTimes ++ [now] }

@[simp] theorem paid_tokens (b : TokenBucket) (now : Instant) :
    (b.paid now).tokens = (b.refill now).tokens - 1 := rfl

@[simp] theorem paid_lastRefill (b : TokenBucket) (now : Instant) :
    (b.paid now).lastRefill = now := rfl

@[simp] theorem paid_maxTokens (b : TokenBucket) (now : Instant) :
    (b.paid now).maxTokens = b.maxTokens := rfl

/-- Within one instant a bucket gains nothing. -/
theorem refill_tokens_of_lastRefill {b : TokenBucket} {now : Instant} (h : b.lastRefill = now) :
    (b.refill now).tokens = min b.tokens b.maxTokens := by
  simp [refill, h, durationSince, asSecsF64]

/-- What a payment takes is not made up for at once. -/
theorem refill_paid_tokens (b : TokenBucket) (now : Instant) :
    ((b.paid now).refill now).tokens = (b.refill now).tokens - 1 := by
  have hmax : (b.refill now).tokens ≤ b.maxTokens := min_le_right _ _
  rw [refill_tokens_of_lastRefill (paid_lastRefill b now), paid_tokens, paid_maxTokens]
  exact min_eq_left ((sub_le_self _ zero_le_one).trans hmax)

theorem tryConsume_of_one_le {b : TokenBucket} {now : Instant}
    (h : 1 ≤ (b.refill now).tokens) : b.tryConsume now = (b.paid now, true) := by
  simp [tryConsume, paid, h]

theorem tryConsume_of_lt_one {b : TokenBucket} {now : Instant}
    (h : (b.refill now).tokens < 1) : b.tryConsume now = (b.refill now, false) := by
  simp [tryConsume, not_le.mpr h]

def recentCount (b : TokenBucket) (now : Instant) : ℕ := b.requestTimes.countP (isRecent now)

theorem detectBurst_snd_iff (b : TokenBucket) (m : F32) (now : Instant) :
    (b.detectBurst m now).2 = true ↔ b.burstThreshold m < b.recentCount now := by
  rw [recentCount, List.countP_eq_length_filter]
  exact decide_eq_true_iff

end TokenBucket

theorem isRecent_iff {now t : Instant} :
    isRecent now t = true ↔ durationSince now t < fromSecs 10 := decide_eq_true_iff

theorem isRecent_of_le {now now' t : Instant} (hle : now ≤ now') (h : isRecent now' t = true) :
    isRecent now t = true := by
  rw [isRecent_iff, durationSince] at h ⊢
  exact lt_of_le_of_lt (Nat.sub_le_sub_right hle t) h

/-- Pruning at `now` does not disturb what is retained later. -/
theorem countP_recent_filter {now now' : Instant} (hle : now ≤ now') (ts : List Instant) :
    (ts.filter (isRecent now)).countP (isRecent now') = ts.countP (isRecent now') := by
  rw [List.countP_filter]
  refine List.countP_congr fun t _ => ?_
  constructor
  · intro h
    exact (Bool.and_eq_true_iff.mp h).1
  · intro h
    exact Bool.and_eq_true_iff.mpr ⟨h, isRecent_of_le hle h⟩

end CivicConnect.Webmention
