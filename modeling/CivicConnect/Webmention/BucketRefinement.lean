import CivicConnect.Webmention.History

/-!
# Buckets and the admissions they stand for

A bucket tracks a list of admissions when, at every later time, it holds the
tokens and the recent timestamps that replaying the admissions gives. An
entry that is missing from the map stands for admissions so old that a new
bucket is indistinguishable from the one they left behind.
-/

namespace CivicConnect.Webmention

structure Shaped (maxRate : UInt32) (b : TokenBucket) : Prop where
  maxTokens : b.maxTokens = maxRate.toNat
  refillRate : b.refillRate = (maxRate.toNat : ℚ) / 60

/-- The bucket agrees with the admissions from `now` on. -/
structure Tracks (maxRate : UInt32) (b : TokenBucket) (now : Instant)
    (admitted : List Instant) : Prop where
  shaped : Shaped maxRate b
  tokens_nonneg : 0 ≤ b.tokens
  lastRefill_le : b.lastRefill ≤ now
  times_le : ∀ s ∈ b.requestTimes, s ≤ b.lastRefill
  upto : RateWindow.Upto now admitted
  tokens : ∀ t ≥ now, (b.refill t).tokens = tokensAt maxRate admitted t
  recent : ∀ t ≥ now, b.recentCount t = admitted.countP (isRecent t)

/-- The admissions leave a full bucket and no recent timestamp. -/
structure Idle (maxRate : UInt32) (now : Instant) (admitted : List Instant) : Prop where
  upto : RateWindow.Upto now admitted
  full : ∀ t ≥ now, tokensAt maxRate admitted t = maxRate.toNat
  quiet : ∀ t ≥ now, admitted.countP (isRecent t) = 0

def EntryTracks (maxRate : UInt32) (entry : Option TokenBucket) (now : Instant)
    (admitted : List Instant) : Prop :=
  match entry with
  | some b => Tracks maxRate b now admitted
  | none => Idle maxRate now admitted

variable {maxRate : UInt32} {b : TokenBucket} {now : Instant} {admitted : List Instant}

theorem rate_nonneg (maxRate : UInt32) : 0 ≤ (maxRate.toNat : ℚ) / 60 := by positivity

theorem Tracks.mono {now' : Instant} (h : Tracks maxRate b now admitted) (hle : now ≤ now') :
    Tracks maxRate b now' admitted where
  shaped := h.shaped
  tokens_nonneg := h.tokens_nonneg
  lastRefill_le := h.lastRefill_le.trans hle
  times_le := h.times_le
  upto := h.upto.mono hle
  tokens t ht := h.tokens t (hle.trans ht)
  recent t ht := h.recent t (hle.trans ht)

theorem Idle.mono {now' : Instant} (h : Idle maxRate now admitted) (hle : now ≤ now') :
    Idle maxRate now' admitted where
  upto := h.upto.mono hle
  full t ht := h.full t (hle.trans ht)
  quiet t ht := h.quiet t (hle.trans ht)

theorem EntryTracks.mono {entry : Option TokenBucket} {now' : Instant}
    (h : EntryTracks maxRate entry now admitted) (hle : now ≤ now') :
    EntryTracks maxRate entry now' admitted := by
  cases entry with
  | none => exact Idle.mono h hle
  | some b => exact Tracks.mono h hle

theorem idle_nil (maxRate : UInt32) (now : Instant) : Idle maxRate now [] where
  upto := RateWindow.Upto.nil now
  full _ _ := rfl
  quiet _ _ := rfl

theorem Shaped.refill_tokens (h : Shaped maxRate b) {t : Instant} (ht : b.lastRefill ≤ t) :
    (b.refill t).tokens = min (b.tokens + (maxRate.toNat : ℚ) / 60 *
      (secs t - secs b.lastRefill)) maxRate.toNat := by
  rw [TokenBucket.refill, asSecsF64_durationSince ht, h.refillRate, h.maxTokens, mul_comm]

theorem Shaped.refill (h : Shaped maxRate b) (t : Instant) : Shaped maxRate (b.refill t) :=
  ⟨h.maxTokens, h.refillRate⟩

theorem Idle.tracks_new (h : Idle maxRate now admitted) :
    Tracks maxRate (TokenBucket.new maxRate now) now admitted where
  shaped := ⟨rfl, rfl⟩
  tokens_nonneg := Nat.cast_nonneg _
  lastRefill_le := le_rfl
  times_le := by simp [TokenBucket.new]
  upto := h.upto
  tokens t ht := by
    have hgain : 0 ≤ asSecsF64 (durationSince t now) * ((maxRate.toNat : ℚ) / 60) := by
      unfold asSecsF64
      positivity
    rw [h.full t ht]
    exact min_eq_right (le_add_of_nonneg_right hgain)
  recent t ht := by
    rw [h.quiet t ht]
    rfl

theorem EntryTracks.tracks_getD {entry : Option TokenBucket}
    (h : EntryTracks maxRate entry now admitted) :
    Tracks maxRate (entry.getD (TokenBucket.new maxRate now)) now admitted := by
  cases entry with
  | none => exact Idle.tracks_new h
  | some b => exact h

theorem Tracks.prune (h : Tracks maxRate b now admitted) :
    Tracks maxRate { b with requestTimes := b.requestTimes.filter (isRecent now) } now
      admitted where
  shaped := ⟨h.shaped.maxTokens, h.shaped.refillRate⟩
  tokens_nonneg := h.tokens_nonneg
  lastRefill_le := h.lastRefill_le
  times_le s hs := h.times_le s (List.mem_of_mem_filter hs)
  upto := h.upto
  tokens := h.tokens
  recent t ht := (countP_recent_filter ht b.requestTimes).trans (h.recent t ht)

theorem Tracks.refill_nonneg (h : Tracks maxRate b now admitted) :
    0 ≤ (b.refill now).tokens := by
  have hsecs : secs b.lastRefill ≤ secs now := secs_mono h.lastRefill_le
  rw [h.shaped.refill_tokens h.lastRefill_le]
  exact le_min (add_nonneg h.tokens_nonneg
    (mul_nonneg (rate_nonneg maxRate) (sub_nonneg.mpr hsecs))) (Nat.cast_nonneg _)

theorem Tracks.refill (h : Tracks maxRate b now admitted) :
    Tracks maxRate (b.refill now) now admitted where
  shaped := h.shaped.refill now
  tokens_nonneg := h.refill_nonneg
  lastRefill_le := le_rfl
  times_le s hs := (h.times_le s hs).trans h.lastRefill_le
  upto := h.upto
  tokens t ht := by
    rw [(h.shaped.refill now).refill_tokens ht, h.tokens now le_rfl]
    exact RateWindow.level_advance (rate_nonneg maxRate) secs_mono ht
  recent := h.recent

/-- A request that takes a token becomes the newest admission. -/
theorem Tracks.consume (h : Tracks maxRate b now admitted) (hone : 1 ≤ (b.refill now).tokens) :
    Tracks maxRate (b.paid now) now (now :: admitted) where
  shaped := ⟨h.shaped.maxTokens, h.shaped.refillRate⟩
  tokens_nonneg := sub_nonneg.mpr hone
  lastRefill_le := le_rfl
  times_le s hs := by
    rcases List.mem_append.mp hs with hs | hs
    · exact (h.times_le s hs).trans h.lastRefill_le
    · exact (List.mem_singleton.mp hs).le
  upto := RateWindow.upto_cons.mpr ⟨le_rfl, h.upto⟩
  tokens t ht := by
    have hshaped : Shaped maxRate (b.paid now) := ⟨h.shaped.maxTokens, h.shaped.refillRate⟩
    have hpaid : (b.paid now).tokens = tokensAt maxRate admitted now - 1 := by
      rw [← h.tokens now le_rfl]
      rfl
    rw [hshaped.refill_tokens ht, hpaid]
    rfl
  recent t ht := by
    rw [List.countP_cons, ← h.recent t ht]
    simp [TokenBucket.recentCount, TokenBucket.paid]

/-- Five minutes without a refill make a bucket full and its timestamps old,
whatever the rate is. -/
theorem Tracks.idle (h : Tracks maxRate b now admitted)
    (hstale : RateLimiter.staleThreshold ≤ durationSince now b.lastRefill) :
    Idle maxRate now admitted where
  upto := h.upto
  full t ht := by
    have hlast : b.lastRefill ≤ t := h.lastRefill_le.trans ht
    have hwait : (300 : ℚ) ≤ secs t - secs b.lastRefill := by
      rw [← asSecsF64_durationSince hlast, ← Nat.cast_ofNat (R := ℚ), ← asSecsF64_fromSecs]
      exact secs_mono (hstale.trans (Nat.sub_le_sub_right ht _))
    have hfull : (maxRate.toNat : ℚ) ≤
        (maxRate.toNat : ℚ) / 60 * (secs t - secs b.lastRefill) := by
      have hscale := mul_le_mul_of_nonneg_left hwait (rate_nonneg maxRate)
      have hcap : (0 : ℚ) ≤ maxRate.toNat := Nat.cast_nonneg _
      linarith
    rw [← h.tokens t ht, h.shaped.refill_tokens hlast]
    exact min_eq_right (le_add_of_nonneg_of_le h.tokens_nonneg hfull)
  quiet t ht := by
    rw [← h.recent t ht]
    refine List.countP_eq_zero.mpr fun s hs => ?_
    have hsl := h.times_le s hs
    rw [isRecent_iff]
    unfold durationSince RateLimiter.staleThreshold fromSecs nanosPerSec at *
    lia

end CivicConnect.Webmention
