import CivicConnect.Webmention.Checks
import CivicConnect.Webmention.Handlers
import CivicConnect.Webmention.Sites

/-!
# The retry time of a refusal

A refusal tells the client after how many whole seconds to come back. The wait
behind it is cut down to whole seconds, so coming back then is as a rule too
early, and a cooldown may end before the burst that caused it is forgotten.
-/

namespace CivicConnect.Webmention

open Net
open BinaryRounding (roundTiesEven roundTiesEven_le roundTiesEven_sub_half_le roundTiesEven_of_even
  floor_le_roundTiesEven)

/-- A whole number of seconds, or less than that by at most the half nanosecond
that rounding makes up for. -/
def OnTheSecond (x : ℚ) : Prop :=
  ∃ k : ℕ, (k : ℚ) - 1 / (2 * nanosPerSec) ≤ x ∧ x ≤ k

/-- The seconds after which the bucket holds a token. -/
def TokenBucket.wait (b : TokenBucket) : ℚ := (1 - b.tokens) / b.refillRate

theorem fromSecs_asSecs_le (d : Duration) : fromSecs (asSecs d) ≤ d := Nat.div_mul_le_self d _

theorem fromSecs_asSecs_eq_iff (d : Duration) : fromSecs (asSecs d) = d ↔ nanosPerSec ∣ d := by
  rw [fromSecs, asSecs]
  exact ⟨fun h => ⟨_, by rw [Nat.mul_comm]; exact h.symm⟩, Nat.div_mul_cancel⟩

/-- The seconds that are told cover the wait exactly where it is on the second. -/
theorem le_asSecs_iff {x : ℚ} (hx : 0 ≤ x) :
    x ≤ asSecs (roundTiesEven (x * nanosPerSec)) ↔ OnTheSecond x := by
  have hn : (nanosPerSec : ℚ) = 1000000000 := by norm_num [nanosPerSec]
  have hscaled : 0 ≤ x * nanosPerSec := by rw [hn]; linarith
  constructor
  · intro h
    refine ⟨_, ?_, h⟩
    have hhalf := roundTiesEven_sub_half_le hscaled
    have hcut : (asSecs (roundTiesEven (x * nanosPerSec)) : ℚ) * nanosPerSec ≤
        roundTiesEven (x * nanosPerSec) := by
      exact_mod_cast fromSecs_asSecs_le (roundTiesEven (x * nanosPerSec))
    rw [hn] at hhalf hcut ⊢
    linarith
  · rintro ⟨k, hlow, hhigh⟩
    have hround : roundTiesEven (x * nanosPerSec) = k * nanosPerSec := by
      apply roundTiesEven_of_even hscaled
      · rw [nanosPerSec]
        omega
      · rw [Nat.cast_mul, hn] at *
        linarith
      · rw [Nat.cast_mul, hn]
        linarith
    rw [hround, asSecs, Nat.mul_div_cancel k (by decide)]
    exact hhigh

/-- Otherwise they are the whole seconds of the wait. -/
theorem asSecs_eq_floor {x : ℚ} (hx : 0 ≤ x) (h : ¬ OnTheSecond x) :
    asSecs (roundTiesEven (x * nanosPerSec)) = ⌊x⌋₊ := by
  apply le_antisymm
  · exact Nat.le_floor (not_le.mp ((not_congr (le_asSecs_iff hx)).mpr h)).le
  · rw [asSecs, Nat.le_div_iff_mul_le (by decide)]
    refine le_trans (Nat.le_floor ?_) (floor_le_roundTiesEven _)
    rw [Nat.cast_mul]
    exact mul_le_mul_of_nonneg_right (Nat.floor_le hx) (Nat.cast_nonneg _)

section Bucket

variable {maxRate : UInt32} {b : TokenBucket}

theorem one_le_toNat {n : UInt32} (h : 0 < n) : (1 : ℚ) ≤ n.toNat := by
  exact_mod_cast UInt32.lt_iff_toNat_lt.mp h

theorem Shaped.wait_bounds (hb : Shaped maxRate b) (hrate : 0 < maxRate) (hpos : 0 ≤ b.tokens)
    (hshort : b.tokens < 1) : 0 ≤ b.wait ∧ b.wait ≤ 60 := by
  have hone := one_le_toNat hrate
  have hrefill : 1 / 60 ≤ b.refillRate := by
    rw [hb.refillRate]
    linarith
  have hrefillPos : 0 < b.refillRate := by linarith
  constructor
  · exact div_nonneg (by linarith) hrefillPos.le
  · rw [TokenBucket.wait, div_le_iff₀ hrefillPos]
    linarith

/-- At a positive rate the wait for a token is a duration. -/
theorem Shaped.timeUntilAvailable_eq (hb : Shaped maxRate b) (hrate : 0 < maxRate)
    (hpos : 0 ≤ b.tokens) (hshort : b.tokens < 1) :
    b.timeUntilAvailable = .ok (roundTiesEven (b.wait * nanosPerSec)) := by
  have hne : b.refillRate ≠ 0 := by
    have hone := one_le_toNat hrate
    rw [hb.refillRate]
    positivity
  obtain ⟨hwait, hminute⟩ := hb.wait_bounds hrate hpos hshort
  have hfits : roundTiesEven (b.wait * nanosPerSec) < (u64Max + 1) * nanosPerSec := by
    have hfloor : ⌊b.wait * nanosPerSec⌋₊ ≤ 60 * nanosPerSec := by
      apply Nat.floor_le_of_le
      rw [Nat.cast_mul]
      exact mul_le_mul_of_nonneg_right (by exact_mod_cast hminute) (Nat.cast_nonneg _)
    refine lt_of_le_of_lt ((roundTiesEven_le _).trans (Nat.succ_le_succ hfloor)) ?_
    decide
  rw [TokenBucket.timeUntilAvailable, if_neg (not_le.mpr hshort), divF64, if_neg hne]
  exact if_pos ⟨hwait, hfits⟩

/-- A bucket left alone holds a token again once the wait is over. -/
theorem Shaped.one_le_refill_iff (hb : Shaped maxRate b) (hrate : 0 < maxRate) (n : ℕ) :
    1 ≤ (b.refill (b.lastRefill + fromSecs n)).tokens ↔ b.wait ≤ n := by
  have hone := one_le_toNat hrate
  have hrefillPos : 0 < b.refillRate := by
    rw [hb.refillRate]
    positivity
  have hlater : secs (b.lastRefill + fromSecs n) - secs b.lastRefill = n := by
    rw [secs_add, asSecsF64_fromSecs, add_sub_cancel_left]
  rw [hb.refill_tokens (Nat.le_add_right _ _), hlater, le_min_iff, and_iff_left hone,
    TokenBucket.wait, div_le_iff₀ hrefillPos, hb.refillRate]
  constructor <;> intro h <;> linarith

end Bucket

namespace RateLimiter

def RefusedFor (reason : RateLimitReason) (outcome : Outcome) : Prop :=
  ∃ d, outcome = .ok (.limited reason d)

variable {env : Platform} {l : RateLimiter} {ip : IpAddr} {sourceUrl : Option String}
  {now : Instant}

theorem refusedFor_map_iff {reason reason' : RateLimitReason} {wait : Except Panic Duration} :
    RefusedFor reason (wait.map (.limited reason')) ↔ reason = reason' ∧ ∃ d, wait = .ok d := by
  cases wait with
  | error p => simp [RefusedFor, Except.map]
  | ok d => simp [RefusedFor, Except.map, eq_comm]

theorem not_refusedFor_ipRemaining (reason : RateLimitReason) :
    ¬ RefusedFor reason (.ok (l.ipRemaining ip now)) := by
  rintro ⟨d, h⟩
  cases h

theorem refusedFor_burst_iff :
    RefusedFor .burstCooldown (l.check env ip sourceUrl now).2 ↔
      l.InCooldown ip now ∨ l.burstAt ip now := by
  have hchecked := checked env l ip sourceUrl now
  generalize l.check env ip sourceUrl now = r at hchecked
  cases hchecked with
  | cooldown state hget hrunning => exact ⟨fun _ => .inl ⟨state, hget, hrunning⟩, fun _ => ⟨_, rfl⟩⟩
  | burst hidle hburst => exact ⟨fun _ => .inr hburst, fun _ => ⟨_, rfl⟩⟩
  | address hidle hquiet _ => simp [refusedFor_map_iff, hidle, hquiet]
  | addressOnly hadmits _ => simp [not_refusedFor_ipRemaining, hadmits.idle, hadmits.quiet]
  | source _ hadmits _ _ => simp [refusedFor_map_iff, hadmits.idle, hadmits.quiet]
  | allowed _ hadmits _ _ => simp [not_refusedFor_ipRemaining, hadmits.idle, hadmits.quiet]

theorem refusedFor_address_iff :
    RefusedFor .ipRateExceeded (l.check env ip sourceUrl now).2 ↔
      ¬ l.InCooldown ip now ∧ ¬ l.burstAt ip now ∧
        ((l.ipBucket ip now).refill now).tokens < 1 ∧
          ∃ d, ((l.ipBucket ip now).refill now).timeUntilAvailable = .ok d := by
  have hchecked := checked env l ip sourceUrl now
  generalize l.check env ip sourceUrl now = r at hchecked
  cases hchecked with
  | cooldown state hget hrunning =>
      simp [RefusedFor, show l.InCooldown ip now from ⟨state, hget, hrunning⟩]
  | burst hidle hburst => simp [RefusedFor, hburst]
  | address hidle hquiet hshort => simp [refusedFor_map_iff, hidle, hquiet, hshort]
  | addressOnly hadmits _ =>
      simp [not_refusedFor_ipRemaining, not_lt.mpr hadmits.token]
  | source _ hadmits _ _ => simp [refusedFor_map_iff, not_lt.mpr hadmits.token]
  | allowed _ hadmits _ _ => simp [not_refusedFor_ipRemaining, not_lt.mpr hadmits.token]

theorem refusedFor_source_iff :
    RefusedFor .sourceRateExceeded (l.check env ip sourceUrl now).2 ↔
      l.Admits ip now ∧ ∃ source, sourceUrl = some source ∧
        ((l.sourceBucket (env.normalizeSourceUrl source) now).refill now).tokens < 1 ∧
          ∃ d, ((l.sourceBucket (env.normalizeSourceUrl source) now).refill
            now).timeUntilAvailable = .ok d := by
  have hchecked := checked env l ip sourceUrl now
  generalize l.check env ip sourceUrl now = r at hchecked
  cases hchecked with
  | cooldown state hget hrunning =>
      have hnot : ¬ l.Admits ip now := fun h => h.idle ⟨state, hget, hrunning⟩
      simp [RefusedFor, hnot]
  | burst hidle hburst =>
      have hnot : ¬ l.Admits ip now := fun h => h.quiet hburst
      simp [RefusedFor, hnot]
  | address hidle hquiet hshort =>
      have hnot : ¬ l.Admits ip now := fun h => not_lt.mpr h.token hshort
      simp [refusedFor_map_iff, hnot]
  | addressOnly hadmits hnone => simp [not_refusedFor_ipRemaining, hnone]
  | source source hadmits hsome hshort => simp [refusedFor_map_iff, hadmits, hsome, hshort]
  | allowed source hadmits hsome htoken =>
      simp [not_refusedFor_ipRemaining, hsome, not_lt.mpr htoken]

theorem not_inCooldown_of_le {t : Instant} (hle : now ≤ t) (h : ¬ l.InCooldown ip now) :
    ¬ l.InCooldown ip t := by
  rintro ⟨state, hget, hrunning⟩
  exact h ⟨state, hget, hle.trans_lt hrunning⟩

theorem recentCount_le {b : TokenBucket} {t : Instant} (hle : now ≤ t) :
    b.recentCount t ≤ b.recentCount now :=
  List.countP_mono_left fun _ _ h => isRecent_of_le hle h

/-- Coming back at the end of a cooldown, in whole seconds. -/
theorem cooldown_retry_iff {cooldownUntil : Instant}
    (hget : l.cooldowns.get ip = some ⟨cooldownUntil⟩) (hle : now ≤ cooldownUntil) :
    ¬ RefusedFor .burstCooldown (l.check env ip sourceUrl
        (now + fromSecs (asSecs (durationSince cooldownUntil now)))).2 ↔
      nanosPerSec ∣ durationSince cooldownUntil now ∧ ¬ l.burstAt ip cooldownUntil := by
  rw [refusedFor_burst_iff, not_or]
  have hcut := fromSecs_asSecs_le (durationSince cooldownUntil now)
  by_cases hwhole : nanosPerSec ∣ durationSince cooldownUntil now
  · have hend : now + fromSecs (asSecs (durationSince cooldownUntil now)) = cooldownUntil := by
      rw [(fromSecs_asSecs_eq_iff _).mpr hwhole, durationSince, Nat.add_sub_cancel' hle]
    have hover : ¬ l.InCooldown ip cooldownUntil := by
      rintro ⟨state, hstate, hrunning⟩
      rw [hget] at hstate
      obtain rfl := Option.some.inj hstate
      exact lt_irrefl _ hrunning
    rw [hend]
    simp [hwhole, hover]
  · have hne := (not_congr (fromSecs_asSecs_eq_iff _)).mpr hwhole
    have hearly : l.InCooldown ip (now + fromSecs (asSecs (durationSince cooldownUntil now))) := by
      refine ⟨_, hget, ?_⟩
      have hlt := lt_of_le_of_ne hcut hne
      rw [durationSince] at hlt ⊢
      exact Nat.add_lt_of_lt_sub' hlt
    simp [hwhole, hearly]

/-- A bucket that is still to be created has no burst, whenever it is. -/
theorem burstAt_iff (l : RateLimiter) (ip : IpAddr) (now t : Instant) :
    l.burstAt ip t ↔ (l.ipBucket ip now).burstThreshold l.config.burstThresholdMultiplier <
      (l.ipBucket ip now).recentCount t := by
  rw [burstAt, ipBucket, ipBucket]
  cases l.ipBuckets.get ip <;> rfl

theorem burstAt_penalised_iff {t : Instant} (hle : now ≤ t) :
    (l.penalised ip now).burstAt ip t ↔ l.burstAt ip t := by
  have hcount : (l.prunedBucket ip now).recentCount t = (l.ipBucket ip now).recentCount t :=
    countP_recent_filter hle _
  rw [burstAt, ipBucket_penalised, hcount, l.burstAt_iff ip now t]
  rfl

/-- Coming back after `n` seconds for a token of the address. -/
theorem address_retry_iff {config : RateLimitConfig} {history : History}
    (hl : Agrees config l now history) (hrpm : 0 < config.maxRateRpm)
    (hidle : ¬ l.InCooldown ip now) (hquiet : ¬ l.burstAt ip now) (n : ℕ) :
    ¬ RefusedFor .ipRateExceeded
        ((l.refusedAddress ip now).check env ip sourceUrl (now + fromSecs n)).2 ↔
      ((l.ipBucket ip now).refill now).wait ≤ n := by
  have hle : now ≤ now + fromSecs n := Nat.le_add_right _ _
  have hb := (hl.ipBucket ip).refill
  have hidle' : ¬ (l.refusedAddress ip now).InCooldown ip (now + fromSecs n) :=
    not_inCooldown_of_le (l := l) hle hidle
  have hquiet' : ¬ (l.refusedAddress ip now).burstAt ip (now + fromSecs n) := by
    have hcount : ((l.prunedBucket ip now).refill now).recentCount (now + fromSecs n) =
        (l.ipBucket ip now).recentCount (now + fromSecs n) := countP_recent_filter hle _
    rw [burstAt, ipBucket_refusedAddress, hcount]
    exact fun hover => hquiet (lt_of_lt_of_le hover (recentCount_le hle))
  have hagain := hb.shaped.one_le_refill_iff hrpm n
  rw [refusedFor_address_iff, ipBucket_refusedAddress]
  change ¬ (_ ∧ _ ∧ (((l.ipBucket ip now).refill now).refill (now + fromSecs n)).tokens < 1 ∧
    ∃ d, (((l.ipBucket ip now).refill now).refill
      (now + fromSecs n)).timeUntilAvailable = .ok d) ↔ _
  rw [← hagain, TokenBucket.refill_lastRefill]
  constructor
  · intro hnot
    by_contra hshort
    have hlater := (hb.mono hle).refill
    exact hnot ⟨hidle', hquiet', not_le.mp hshort, _,
      hlater.shaped.timeUntilAvailable_eq hrpm hlater.tokens_nonneg (not_le.mp hshort)⟩
  · rintro htoken ⟨_, _, hshort, _⟩
    exact not_lt.mpr htoken hshort

/-- After paying at `now` the address would be refused `n` seconds later. -/
def GivesOut (l : RateLimiter) (ip : IpAddr) (now : Instant) (n : ℕ) : Prop :=
  let b := (l.prunedBucket ip now).paid now
  b.burstThreshold l.config.burstThresholdMultiplier < b.recentCount (now + fromSecs n) ∨
    (b.refill (now + fromSecs n)).tokens < 1

/-- An address that was let through is let through again unless it gives out. -/
theorem admits_again_iff (hadmits : l.Admits ip now) (key : String) (n : ℕ) :
    ((l.admittedAddress ip now).refusedSource key now).Admits ip (now + fromSecs n) ↔
      ¬ l.GivesOut ip now n := by
  have hip : ((l.admittedAddress ip now).refusedSource key now).ipBucket ip (now + fromSecs n) =
      (l.prunedBucket ip now).paid now := ipBucket_admittedAddress l ip now _
  constructor
  · intro h
    have hquiet := h.quiet
    have htoken := h.token
    rw [burstAt, hip] at hquiet
    rw [hip] at htoken
    exact not_or.mpr ⟨hquiet, not_lt.mpr htoken⟩
  · intro h
    obtain ⟨hquiet, htoken⟩ := not_or.mp h
    have hidle : ¬ l.InCooldown ip (now + fromSecs n) :=
      not_inCooldown_of_le (Nat.le_add_right _ _) hadmits.idle
    exact ⟨hidle, by rw [burstAt, hip]; exact hquiet, by rw [hip]; exact not_lt.mp htoken⟩

/-- Coming back after `n` seconds for a token of the source. -/
theorem source_retry_iff {config : RateLimitConfig} {history : History}
    (hl : Agrees config l now history) (hsource : 0 < config.maxRatePerSource)
    (hadmits : l.Admits ip now) (source : String) (n : ℕ) :
    ¬ RefusedFor .sourceRateExceeded
        (((l.admittedAddress ip now).refusedSource (env.normalizeSourceUrl source) now).check env ip
          (some source) (now + fromSecs n)).2 ↔
      ((l.sourceBucket (env.normalizeSourceUrl source) now).refill now).wait ≤ n ∨
        l.GivesOut ip now n := by
  generalize hkey : env.normalizeSourceUrl source = key
  have hle : now ≤ now + fromSecs n := Nat.le_add_right _ _
  have hb := (hl.sourceBucket key).refill
  have hbucket : ((l.admittedAddress ip now).refusedSource key now).sourceBucket key
      (now + fromSecs n) = (l.sourceBucket key now).refill now :=
    sourceBucket_refusedSource (l.admittedAddress ip now) key now _
  have hwait := hb.shaped.one_le_refill_iff hsource n
  rw [refusedFor_source_iff, admits_again_iff hadmits, ← hwait, TokenBucket.refill_lastRefill]
  constructor
  · intro hnot
    by_contra hboth
    obtain ⟨hshort, hgives⟩ := not_or.mp hboth
    have hlater := (hb.mono hle).refill
    refine hnot ⟨hgives, source, rfl, ?_⟩
    rw [hkey, hbucket]
    exact ⟨not_le.mp hshort, _, hlater.shaped.timeUntilAvailable_eq hsource hlater.tokens_nonneg
      (not_le.mp hshort)⟩
  · rintro hor ⟨hgives, source', hsome, hshort, _⟩
    obtain rfl := Option.some.inj hsome
    rw [hkey, hbucket] at hshort
    exact hor.elim (fun htoken => not_lt.mpr htoken hshort) hgives

/-- Where the retry time is enough: a cooldown ends on a whole second and leaves
no burst behind, and the exact wait for a token is on the second, unless the
address has run out by then. -/
structure HonestRetry (env : Platform) (l : RateLimiter) (ip : IpAddr)
    (sourceUrl : Option String) (now : Instant) : Prop where
  cooldown : ∀ state, l.cooldowns.get ip = some state → now < state.cooldownUntil →
    nanosPerSec ∣ durationSince state.cooldownUntil now ∧ ¬ l.burstAt ip state.cooldownUntil
  burst : ¬ l.InCooldown ip now → l.burstAt ip now →
    nanosPerSec ∣ l.config.cooldownDuration ∧ ¬ l.burstAt ip (now + l.config.cooldownDuration)
  address : ¬ l.InCooldown ip now → ¬ l.burstAt ip now →
    ((l.ipBucket ip now).refill now).tokens < 1 → OnTheSecond ((l.ipBucket ip now).refill now).wait
  source : l.Admits ip now → ∀ source, sourceUrl = some source →
    let b := (l.sourceBucket (env.normalizeSourceUrl source) now).refill now
    b.tokens < 1 → OnTheSecond b.wait ∨ l.GivesOut ip now ⌊b.wait⌋₊

theorem honestRetry_iff_of_cooldown {state : CooldownState}
    (hget : l.cooldowns.get ip = some state) (hrunning : now < state.cooldownUntil) :
    l.HonestRetry env ip sourceUrl now ↔
      nanosPerSec ∣ durationSince state.cooldownUntil now ∧ ¬ l.burstAt ip state.cooldownUntil := by
  have hrun : l.InCooldown ip now := ⟨state, hget, hrunning⟩
  constructor
  · intro h
    exact h.cooldown state hget hrunning
  · intro h
    refine ⟨?_, fun hidle => absurd hrun hidle, fun hidle => absurd hrun hidle,
      fun hadmits => absurd hrun hadmits.idle⟩
    intro state' hget' _
    obtain rfl := Option.some.inj (hget.symm.trans hget')
    exact h

theorem honestRetry_iff_of_burst (hidle : ¬ l.InCooldown ip now) (hburst : l.burstAt ip now) :
    l.HonestRetry env ip sourceUrl now ↔ nanosPerSec ∣ l.config.cooldownDuration ∧
      ¬ l.burstAt ip (now + l.config.cooldownDuration) := by
  constructor
  · intro h
    exact h.burst hidle hburst
  · intro h
    exact ⟨fun state hget hrunning => absurd ⟨state, hget, hrunning⟩ hidle, fun _ _ => h,
      fun _ hquiet => absurd hburst hquiet, fun hadmits => absurd hburst hadmits.quiet⟩

theorem honestRetry_iff_of_address (hidle : ¬ l.InCooldown ip now) (hquiet : ¬ l.burstAt ip now)
    (hshort : ((l.ipBucket ip now).refill now).tokens < 1) :
    l.HonestRetry env ip sourceUrl now ↔
      OnTheSecond ((l.ipBucket ip now).refill now).wait := by
  constructor
  · intro h
    exact h.address hidle hquiet hshort
  · intro h
    exact ⟨fun state hget hrunning => absurd ⟨state, hget, hrunning⟩ hidle,
      fun _ hburst => absurd hburst hquiet, fun _ _ _ => h,
      fun hadmits => absurd hshort (not_lt.mpr hadmits.token)⟩

theorem honestRetry_iff_of_source (hadmits : l.Admits ip now) {source : String} {b : TokenBucket}
    (hbucket : b = (l.sourceBucket (env.normalizeSourceUrl source) now).refill now)
    (hshort : b.tokens < 1) :
    l.HonestRetry env ip (some source) now ↔ OnTheSecond b.wait ∨ l.GivesOut ip now ⌊b.wait⌋₊ := by
  subst hbucket
  constructor
  · intro h
    exact h.source hadmits source rfl hshort
  · intro h
    refine ⟨fun state hget hrunning => absurd ⟨state, hget, hrunning⟩ hadmits.idle,
      fun _ hburst => absurd hburst hadmits.quiet,
      fun _ _ hempty => absurd hempty (not_lt.mpr hadmits.token), ?_⟩
    intro _ source' hsome b' _
    obtain rfl := Option.some.inj hsome
    exact h

/-- The same request, made again when it was told to, is refused for the same
reason unless the retry time is honest. -/
theorem check_retry_iff {config : RateLimitConfig} {history : History}
    (hl : Agrees config l now history) (hrpm : 0 < config.maxRateRpm)
    (hsource : 0 < config.maxRatePerSource) {reason : RateLimitReason} {d : Duration}
    (hcheck : (l.check env ip sourceUrl now).2 = .ok (.limited reason d)) :
    ¬ RefusedFor reason ((l.check env ip sourceUrl now).1.check env ip sourceUrl
        (now + fromSecs (asSecs d))).2 ↔ l.HonestRetry env ip sourceUrl now := by
  have hchecked := checked env l ip sourceUrl now
  generalize l.check env ip sourceUrl now = r at hchecked hcheck
  cases hchecked with
  | cooldown state hget hrunning =>
      cases hcheck
      rw [cooldown_retry_iff hget hrunning.le, honestRetry_iff_of_cooldown hget hrunning]
  | burst hidle hburst =>
      cases hcheck
      have hset : (l.penalised ip now).cooldowns.get ip =
          some ⟨now + l.config.cooldownDuration⟩ := KeyedMap.get_set_self _ _ _
      have hspan : durationSince (now + l.config.cooldownDuration) now =
          l.config.cooldownDuration := Nat.add_sub_cancel_left _ _
      have hend := @cooldown_retry_iff env _ ip sourceUrl now _ hset
        (Nat.le_add_right now _)
      rw [hspan, burstAt_penalised_iff (Nat.le_add_right now _)] at hend
      rw [hend, honestRetry_iff_of_burst hidle hburst]
  | address hidle hquiet hshort =>
      have hb := (hl.ipBucket ip).refill
      obtain ⟨hwait, _⟩ := hb.shaped.wait_bounds hrpm hb.tokens_nonneg hshort
      rw [hb.shaped.timeUntilAvailable_eq hrpm hb.tokens_nonneg hshort] at hcheck
      cases hcheck
      rw [address_retry_iff hl hrpm hidle hquiet, le_asSecs_iff hwait,
        honestRetry_iff_of_address hidle hquiet hshort]
  | addressOnly _ _ => cases hcheck
  | source source hadmits hsome hshort =>
      have hb := (hl.sourceBucket (env.normalizeSourceUrl source)).refill
      obtain ⟨hwait, _⟩ := hb.shaped.wait_bounds hsource hb.tokens_nonneg hshort
      rw [hb.shaped.timeUntilAvailable_eq hsource hb.tokens_nonneg hshort] at hcheck
      cases hcheck
      subst hsome
      rw [source_retry_iff hl hsource hadmits, honestRetry_iff_of_source hadmits rfl hshort,
        le_asSecs_iff hwait]
      -- The seconds told matter only where the wait is not on the second.
      refine or_congr_right' fun hnot => ?_
      rw [asSecs_eq_floor hwait hnot]
  | allowed _ _ _ _ => cases hcheck

end RateLimiter

theorem RateLimitReason.display_injective {reason reason' : RateLimitReason}
    (h : reason.display = reason'.display) : reason = reason' := by
  cases reason <;> cases reason' <;> first | rfl | exact absurd h (by decide)

namespace AppState

/-- The request is refused, and with the text of this reason. -/
def RefusedFor (env : Platform) (state : AppState) (req : CheckRequest) (now : Instant)
    (reason : RateLimitReason) : Prop :=
  ∃ status response, (state.check env req now).2 = .ok (status, response) ∧
    response.allowed = false ∧ response.reason = some reason.display

theorem respond_refused_iff {outcome : Outcome} {reason : RateLimitReason} :
    (∃ status response, outcome.map respond = .ok (status, response) ∧
        response.allowed = false ∧ response.reason = some reason.display) ↔
      RateLimiter.RefusedFor reason outcome := by
  constructor
  · rintro ⟨status, response, hanswer, hrefused, hreason⟩
    cases outcome with
    | error p => cases hanswer
    | ok result =>
        cases result with
        | allowed remaining resetIn =>
            cases hanswer
            cases hrefused
        | limited reason' d =>
            cases hanswer
            obtain rfl := RateLimitReason.display_injective (Option.some.inj hreason)
            exact ⟨d, rfl⟩
  · rintro ⟨d, rfl⟩
    exact ⟨_, _, rfl, rfl, rfl⟩

theorem retryAfterSecs_eq {outcome : Outcome} {reason : RateLimitReason} {d : Duration}
    {status : StatusCode} {response : CheckResponse} {n : ℕ}
    (houtcome : outcome = .ok (.limited reason d))
    (hanswer : outcome.map respond = .ok (status, response))
    (hretry : response.retryAfterSecs = some n) : n = asSecs d := by
  subst houtcome
  cases hanswer
  exact (Option.some.inj hretry).symm

/-- Only a rate limit comes with a retry time. -/
theorem retryAfterSecs_of_rejected {env : Platform} {l : RateLimiter}
    {validator : WebmentionValidator} {req : CheckRequest} {now : Instant} {status : StatusCode}
    {response : CheckResponse} (h : req.accepted env validator = none)
    (hanswer : (check env ⟨l, validator⟩ req now).2 = .ok (status, response)) :
    response.retryAfterSecs = none := by
  rw [CheckRequest.accepted] at h
  rw [check] at hanswer
  cases hip : parseIpAddr req.ip with
  | none =>
      rw [hip] at hanswer
      cases hanswer
      rfl
  | some ip =>
      cases hvalid : validator.validate env req.contentType req.source req.target with
      | ok => simp [hvalid, hip] at h
      | error err =>
          simp only [hip, hvalid] at hanswer
          cases hanswer
          rfl

theorem parseIpAddr_of_accepted {env : Platform} {validator : WebmentionValidator}
    {req : CheckRequest} {ip : IpAddr} (h : req.accepted env validator = some ip) :
    parseIpAddr req.ip = some ip := by
  rw [CheckRequest.accepted] at h
  split at h
  · exact h
  · cases h

/-- A client that comes back when it was told to is refused for the same reason
unless the retry time was honest. -/
theorem retry_after_honest_iff (env : Platform) (validator : WebmentionValidator)
    {config : RateLimitConfig} (hrpm : 0 < config.maxRateRpm)
    (hsource : 0 < config.maxRatePerSource) {l : RateLimiter} {now : Instant}
    (hl : RateLimiter.Reachable env config now l) {req : CheckRequest} {reason : RateLimitReason}
    {n : ℕ} {status : StatusCode} {response : CheckResponse}
    (hanswer : (check env ⟨l, validator⟩ req now).2 = .ok (status, response))
    (hrefused : response.allowed = false) (hreason : response.reason = some reason.display)
    (hretry : response.retryAfterSecs = some n) :
    ¬ (check env ⟨l, validator⟩ req now).1.RefusedFor env req (now + fromSecs n) reason ↔
      ∀ ip, parseIpAddr req.ip = some ip → l.HonestRetry env ip req.source now := by
  obtain ⟨history, hagrees⟩ := hl.agrees
  cases haccepted : req.accepted env validator with
  | none =>
      rw [retryAfterSecs_of_rejected haccepted hanswer] at hretry
      cases hretry
  | some ip =>
      have hip := parseIpAddr_of_accepted haccepted
      rw [check_accepted now haccepted] at hanswer ⊢
      obtain ⟨d, hd⟩ := respond_refused_iff.mp ⟨status, response, hanswer, hrefused, hreason⟩
      obtain rfl := retryAfterSecs_eq hd hanswer hretry
      rw [RefusedFor, check_accepted _ haccepted, respond_refused_iff,
        RateLimiter.check_retry_iff hagrees hrpm hsource hd, hip]
      simp

def visitPing : CheckRequest :=
  ⟨"192.0.2.1", some "https://blog.example.com/b", some "https://site.example/c",
    some "application/x-www-form-urlencoded"⟩

def slowConfig : RateLimitConfig := { (default : RateLimitConfig) with maxRateRpm := 1 }

/-- One visit, which took the only token of its address. -/
def visitedLimiter : RateLimiter :=
  Machine.final (RateLimiter.step blogWeb) (RateLimiter.new slowConfig)
    [⟨0, .check (.v4 192 0 2 1) (some "https://blog.example.com/b")⟩]

theorem visitedLimiter_reachable (now : Instant) :
    RateLimiter.Reachable blogWeb slowConfig now visitedLimiter :=
  ⟨[⟨0, .check (.v4 192 0 2 1) (some "https://blog.example.com/b")⟩], by decide, by simp, rfl⟩

theorem check_visitPing :
    (check blogWeb ⟨visitedLimiter, ⟨default⟩⟩ visitPing 0).2 =
      .ok (.ok, ⟨false, some "IP rate limit exceeded", some 60, none⟩) := by decide +kernel

/-- Refused at once, the next visit is told to wait a minute, and may. -/
theorem retry_after_honest_iff_minute :
    RateLimiter.Reachable blogWeb slowConfig 0 visitedLimiter ∧
      (check blogWeb ⟨visitedLimiter, ⟨default⟩⟩ visitPing 0).2 =
        .ok (.ok, ⟨false, some "IP rate limit exceeded", some 60, none⟩) ∧
      (¬ (check blogWeb ⟨visitedLimiter, ⟨default⟩⟩ visitPing 0).1.RefusedFor blogWeb visitPing
          (0 + fromSecs 60) .ipRateExceeded ↔
        ∀ ip, parseIpAddr visitPing.ip = some ip →
          visitedLimiter.HonestRetry blogWeb ip visitPing.source 0) :=
  ⟨visitedLimiter_reachable 0, check_visitPing,
    retry_after_honest_iff blogWeb ⟨default⟩ (by decide) (by decide) (visitedLimiter_reachable 0)
      check_visitPing rfl rfl rfl⟩

/-- Half a second later the wait of 59.5 s is told as 59 s, and a visit made
then is half a second early. -/
theorem retry_after_early :
    ¬ ∀ (env : Platform) (validator : WebmentionValidator) (config : RateLimitConfig),
      0 < config.maxRateRpm → 0 < config.maxRatePerSource → ∀ (l : RateLimiter) (now : Instant),
        RateLimiter.Reachable env config now l → ∀ (req : CheckRequest) (reason : RateLimitReason)
          (n : ℕ) (status : StatusCode) (response : CheckResponse),
          (check env ⟨l, validator⟩ req now).2 = .ok (status, response) →
            response.allowed = false → response.reason = some reason.display →
              response.retryAfterSecs = some n →
                ¬ (check env ⟨l, validator⟩ req now).1.RefusedFor env req (now + fromSecs n)
                  reason := by
  intro hlaw
  have hfirst : (check blogWeb ⟨visitedLimiter, ⟨default⟩⟩ visitPing 500000000).2 =
      .ok (.ok, ⟨false, some "IP rate limit exceeded", some 59, none⟩) := by decide +kernel
  have hsecond : ((check blogWeb ⟨visitedLimiter, ⟨default⟩⟩ visitPing 500000000).1.check blogWeb
      visitPing (500000000 + fromSecs 59)).2 =
        .ok (.ok, ⟨false, some "IP rate limit exceeded", some 0, none⟩) := by decide +kernel
  exact hlaw blogWeb ⟨default⟩ slowConfig (by decide) (by decide) visitedLimiter 500000000
    (visitedLimiter_reachable 500000000) visitPing .ipRateExceeded 59 _ _ hfirst rfl rfl rfl
    ⟨_, _, hsecond, rfl, rfl⟩

end AppState

end CivicConnect.Webmention
