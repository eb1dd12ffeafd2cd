import CivicConnect.Library.TaskCredits
import CivicConnect.Webmention.Locks
import CivicConnect.Webmention.Windows

/-!
# The limits under contention

Any number of calls run at once and every lock operation and access of one may
fall between those of the others, each with a clock reading of its own. What a
bucket still holds is the account that admissions are paid from, so that the
calls of one address, or for one source, that begin and return in a window stay
within its budget.
-/

namespace CivicConnect.Webmention

open Net LockedTasks

/-- Whose bucket it is. -/
inductive Key where
  | ip (ip : IpAddr)
  | source (key : String)
  deriving DecidableEq

namespace Key

def maxRate (config : RateLimitConfig) : Key → UInt32
  | ip _ => config.maxRateRpm
  | source _ => config.maxRatePerSource

def entry (l : RateLimiter) : Key → Option TokenBucket
  | ip a => l.ipBuckets.get a
  | source k => l.sourceBuckets.get k

end Key

def Call.names (env : Platform) (key : Key) : Call → Bool
  | checkIp ip => key = .ip ip
  | checkSource sourceUrl => key = .source (env.normalizeSourceUrl sourceUrl)
  | check ip none => key = .ip ip
  | check ip (some source) => key = .ip ip || key = .source (env.normalizeSourceUrl source)
  | cleanup => false

def Outcome.permits : Outcome → Bool
  | .ok (.allowed _ _) => true
  | _ => false

def permitted : Option Outcome → Bool
  | some outcome => outcome.permits
  | none => false

/-- The tokens that the next request finds. -/
def tokensLeft (maxRate : UInt32) (entry : Option TokenBucket) (now : Instant) : ℚ :=
  ((entry.getD (TokenBucket.new maxRate now)).refill now).tokens

structure Sane (maxRate : UInt32) (now : Instant) (b : TokenBucket) : Prop where
  shaped : Shaped maxRate b
  tokens_nonneg : 0 ≤ b.tokens
  lastRefill_le : b.lastRefill ≤ now

variable {maxRate : UInt32} {b : TokenBucket} {now later : Instant} {config : RateLimitConfig}
  {l l' : RateLimiter} {key key' : Key}

theorem sane_new (maxRate : UInt32) (now : Instant) :
    Sane maxRate now (TokenBucket.new maxRate now) :=
  ⟨⟨rfl, rfl⟩, Nat.cast_nonneg _, le_rfl⟩

theorem refill_new (maxRate : UInt32) (now : Instant) :
    ((TokenBucket.new maxRate now).refill now).tokens = maxRate.toNat :=
  (TokenBucket.refill_tokens_of_lastRefill (b := TokenBucket.new maxRate now) rfl).trans
    (min_self _)

theorem Sane.mono (h : Sane maxRate now b) (hle : now ≤ later) : Sane maxRate later b :=
  ⟨h.shaped, h.tokens_nonneg, h.lastRefill_le.trans hle⟩

theorem Sane.refill_nonneg (h : Sane maxRate now b) : 0 ≤ (b.refill now).tokens := by
  have hsecs : secs b.lastRefill ≤ secs now := secs_mono h.lastRefill_le
  rw [h.shaped.refill_tokens h.lastRefill_le]
  have hgain := mul_nonneg (rate_nonneg maxRate) (sub_nonneg.mpr hsecs)
  exact le_min (add_nonneg h.tokens_nonneg hgain) (Nat.cast_nonneg _)

theorem Shaped.refill_le (h : Shaped maxRate b) (now : Instant) :
    (b.refill now).tokens ≤ maxRate.toNat := by
  rw [← h.maxTokens]
  exact min_le_right _ _

theorem Sane.tryConsume (h : Sane maxRate now b) : Sane maxRate now (b.tryConsume now).1 := by
  by_cases hone : 1 ≤ (b.refill now).tokens
  · rw [TokenBucket.tryConsume_of_one_le hone]
    exact ⟨⟨h.shaped.maxTokens, h.shaped.refillRate⟩, sub_nonneg.mpr hone, le_rfl⟩
  · rw [TokenBucket.tryConsume_of_lt_one (not_le.mp hone)]
    exact ⟨h.shaped.refill now, h.refill_nonneg, le_rfl⟩

/-- A request takes a token exactly when it is told so. -/
theorem refill_tryConsume (b : TokenBucket) (now : Instant) :
    ((b.tryConsume now).1.refill now).tokens + ((b.tryConsume now).2.toNat : ℚ) =
      (b.refill now).tokens := by
  by_cases hone : 1 ≤ (b.refill now).tokens
  · rw [TokenBucket.tryConsume_of_one_le hone, TokenBucket.refill_paid_tokens]
    simp
  · rw [TokenBucket.tryConsume_of_lt_one (not_le.mp hone)]
    have hmax : (b.refill now).tokens ≤ b.maxTokens := min_le_right _ _
    rw [TokenBucket.refill_tokens_of_lastRefill (TokenBucket.refill_lastRefill b now),
      TokenBucket.refill_maxTokens, min_eq_left hmax]
    simp

/-- A bucket gains no more than its rate allows. -/
theorem Sane.refill_mono (h : Sane maxRate now b) (hle : now ≤ later) :
    (b.refill later).tokens ≤
      (b.refill now).tokens + (maxRate.toNat : ℚ) / 60 * (secs later - secs now) := by
  have hgain : 0 ≤ (maxRate.toNat : ℚ) / 60 * (secs later - secs now) :=
    mul_nonneg (rate_nonneg maxRate) (sub_nonneg.mpr (secs_mono hle))
  rw [h.shaped.refill_tokens h.lastRefill_le,
    h.shaped.refill_tokens (h.lastRefill_le.trans hle), min_add]
  refine min_le_min ?_ (le_add_of_nonneg_right hgain)
  rw [add_assoc, ← mul_add]
  exact le_of_eq (by ring_nf)

theorem Sane.full_of_stale (h : Sane maxRate now b) {reading : Instant} (hreading : reading ≤ now)
    (hstale : RateLimiter.isFresh reading b = false) : (b.refill now).tokens = maxRate.toNat := by
  have hidle : RateLimiter.staleThreshold ≤ durationSince reading b.lastRefill := by
    simpa [RateLimiter.isFresh] using hstale
  have hsecs : (300 : ℚ) ≤ secs now - secs b.lastRefill := by
    rw [← asSecsF64_durationSince h.lastRefill_le]
    have hnanos : fromSecs 300 ≤ durationSince now b.lastRefill :=
      hidle.trans (Nat.sub_le_sub_right hreading _)
    have hcast : ((fromSecs 300 : ℕ) : ℚ) ≤ (durationSince now b.lastRefill : ℕ) := by
      exact_mod_cast hnanos
    rw [asSecsF64, le_div_iff₀ (by norm_num [nanosPerSec])]
    refine le_trans (le_of_eq ?_) hcast
    norm_num [fromSecs, nanosPerSec]
  rw [h.shaped.refill_tokens h.lastRefill_le]
  apply min_eq_right
  have hrate := rate_nonneg maxRate
  have htokens := h.tokens_nonneg
  nlinarith

/-- What every access finds and leaves. -/
structure Kept (config : RateLimitConfig) (now : Instant) (l : RateLimiter) : Prop where
  sameConfig : l.config = config
  sane : ∀ key : Key, ∀ b ∈ key.entry l, Sane (key.maxRate config) now b

theorem kept_new (config : RateLimitConfig) (now : Instant) :
    Kept config now (RateLimiter.new config) where
  sameConfig := rfl
  sane key b hb := by cases key <;> cases hb

theorem Kept.mono (h : Kept config now l) (hle : now ≤ later) : Kept config later l where
  sameConfig := h.sameConfig
  sane key b hb := (h.sane key b hb).mono hle

theorem Kept.sane_getD (h : Kept config now l) (key : Key) :
    Sane (key.maxRate config) now
      ((key.entry l).getD (TokenBucket.new (key.maxRate config) now)) := by
  cases hentry : key.entry l with
  | none => exact sane_new _ now
  | some b => exact h.sane key b hentry

/-- The tokens of a bucket as an account. -/
def account (config : RateLimitConfig) (key : Key) : Account Instant RateLimiter where
  inv := Kept config
  left now l := tokensLeft (key.maxRate config) (key.entry l) now
  supply now := ((key.maxRate config).toNat : ℚ) / 60 * secs now
  inv_mono hle h := h.mono hle
  left_mono {now later l} hle h := by
    rw [← mul_sub, tokensLeft, tokensLeft]
    cases hentry : key.entry l with
    | none =>
        rw [Option.getD_none, Option.getD_none, refill_new, refill_new]
        exact le_add_of_nonneg_right (mul_nonneg (rate_nonneg _) (sub_nonneg.mpr (secs_mono hle)))
    | some b => exact (h.sane key b hentry).refill_mono hle
  left_nonneg h := (h.sane_getD key).refill_nonneg

theorem left_le (h : Kept config now l) (key : Key) :
    (account config key).left now l ≤ (key.maxRate config).toNat :=
  (h.sane_getD key).shaped.refill_le now

/-- The step keeps what is kept and takes at least `spent` from the account. -/
structure Spends (config : RateLimitConfig) (key : Key) (now : Instant) (l l' : RateLimiter)
    (spent : ℕ) : Prop where
  kept : Kept config now l'
  left : (account config key).left now l' + (spent : ℚ) ≤ (account config key).left now l

/-- The limiter `l'` differs from `l` in one bucket, and in the cooldowns. -/
structure Replaces (key : Key) (b : TokenBucket) (l l' : RateLimiter) : Prop where
  config : l'.config = l.config
  entry : ∀ key' : Key, key'.entry l' = if key' = key then some b else key'.entry l

theorem replaces_ip (l : RateLimiter) (ip : IpAddr) (b : TokenBucket) :
    Replaces (.ip ip) b l { l with ipBuckets := l.ipBuckets.set ip b } where
  config := rfl
  entry key' := by
    cases key' with
    | ip a => simp [Key.entry, KeyedMap.get_set]
    | source k => rfl

theorem replaces_source (l : RateLimiter) (k : String) (b : TokenBucket) :
    Replaces (.source k) b l { l with sourceBuckets := l.sourceBuckets.set k b } where
  config := rfl
  entry key' := by
    cases key' with
    | ip a => rfl
    | source k' => simp [Key.entry, KeyedMap.get_set]

theorem Replaces.kept (hl : Replaces key b l l') (h : Kept config now l)
    (hb : Sane (key.maxRate config) now b) : Kept config now l' where
  sameConfig := hl.config.trans h.sameConfig
  sane key' b' hb' := by
    rw [hl.entry key'] at hb'
    split_ifs at hb' with hkey
    · obtain rfl := Option.some.inj hb'
      exact hkey ▸ hb
    · exact h.sane key' b' hb'

theorem Replaces.left (hl : Replaces key b l l') {taken : ℕ}
    (hb : (b.refill now).tokens + (taken : ℚ) = tokensLeft (key.maxRate config) (key.entry l) now)
    (key' : Key) :
    (account config key').left now l' + ((if key' = key then taken else 0 : ℕ) : ℚ) ≤
      (account config key').left now l := by
  change tokensLeft _ _ _ + _ ≤ tokensLeft _ _ _
  rw [hl.entry key']
  split_ifs with hkey
  · subst hkey
    exact hb.le
  · simp

/-- A request that pays from a bucket. -/
theorem Replaces.pay (h : Kept config now l)
    (hl : Replaces key (((key.entry l).getD (TokenBucket.new (key.maxRate config) now)).tryConsume
      now).1 l l') (key' : Key) :
    Spends config key' now l l' (if key' = key then (((key.entry l).getD
      (TokenBucket.new (key.maxRate config) now)).tryConsume now).2.toNat else 0) :=
  ⟨hl.kept h (h.sane_getD key).tryConsume, hl.left (refill_tryConsume _ now) key'⟩

/-- A sweep only forgets buckets that have been full since its reading. -/
theorem Kept.sweep (h : Kept config now l) (l' : RateLimiter) {reading : Instant}
    (hreading : reading ≤ now) (hconfig : l'.config = l.config)
    (hentry : ∀ key : Key, key.entry l' = key.entry l ∨
      key.entry l' = (key.entry l).filter (RateLimiter.isFresh reading)) (key : Key) :
    Spends config key now l l' 0 := by
  constructor
  · refine ⟨hconfig.trans h.sameConfig, ?_⟩
    intro key b hb
    rcases hentry key with heq | heq
    · exact h.sane key b (heq ▸ hb)
    · rw [heq] at hb
      exact h.sane key b (Option.filter_eq_some_iff.mp hb).1
  · rw [Nat.cast_zero, add_zero]
    change tokensLeft _ _ _ ≤ tokensLeft _ _ _
    rcases hentry key with heq | heq
    · rw [heq]
    · rw [heq]
      cases hget : key.entry l with
      | none => exact le_rfl
      | some b =>
          cases hfresh : RateLimiter.isFresh reading b with
          | true => simp [Option.filter, hfresh]
          | false =>
              have hfull := (h.sane key b hget).full_of_stale hreading hfresh
              simp only [Option.filter, hfresh, tokensLeft, Option.getD_some]
              exact hfull.symm ▸ (sane_new _ now).shaped.refill_le now

theorem Kept.cleanIpBuckets (h : Kept config now l) {reading : Instant} (hreading : reading ≤ now)
    (key : Key) : Spends config key now l (l.cleanIpBuckets reading) 0 := by
  apply h.sweep (l.cleanIpBuckets reading) hreading rfl
  rintro (a | k)
  · exact .inr (KeyedMap.get_retain _ _ _)
  · exact .inl rfl

theorem Kept.cleanSourceBuckets (h : Kept config now l) {reading : Instant}
    (hreading : reading ≤ now) (key : Key) :
    Spends config key now l (l.cleanSourceBuckets reading) 0 := by
  apply h.sweep (l.cleanSourceBuckets reading) hreading rfl
  rintro (a | k)
  · exact .inl rfl
  · exact .inr (KeyedMap.get_retain _ _ _)

/-- A step that changes cooldowns only. -/
theorem Kept.cooldowns (h : Kept config now l) (l' : RateLimiter) (hconfig : l'.config = l.config)
    (hentry : ∀ key : Key, key.entry l' = key.entry l) (key : Key) :
    Spends config key now l l' 0 :=
  h.sweep l' le_rfl hconfig (fun key => .inl (hentry key)) key

theorem permits_pay (consumed : Bool) (remaining : ℕ) (resetIn : Duration)
    (wait : Except Panic Duration) (reason : RateLimitReason) :
    Outcome.permits (if consumed then .ok (.allowed remaining resetIn)
      else wait.map (.limited reason)) = consumed := by
  cases consumed with
  | true => rfl
  | false => cases wait <;> rfl

theorem Kept.detectBurst (h : Kept config now l) (key : Key) (ip : IpAddr) :
    Spends config key now l (l.detectBurst ip now).1 0 := by
  have hbucket : Sane config.maxRateRpm now (l.ipBucket ip now) := by
    rw [RateLimiter.ipBucket, h.sameConfig]
    exact h.sane_getD (.ip ip)
  have hpruned : Sane config.maxRateRpm now (l.prunedBucket ip now) :=
    ⟨⟨hbucket.shaped.maxTokens, hbucket.shaped.refillRate⟩, hbucket.tokens_nonneg,
      hbucket.lastRefill_le⟩
  have hlevel : ((l.prunedBucket ip now).refill now).tokens + ((0 : ℕ) : ℚ) =
      tokensLeft config.maxRateRpm (Key.entry l (.ip ip)) now := by
    rw [Nat.cast_zero, add_zero, ← h.sameConfig]
    rfl
  have hreplaces := replaces_ip l ip (l.prunedBucket ip now)
  have hleft := hreplaces.left hlevel key
  rw [ite_self] at hleft
  rw [RateLimiter.detectBurst_fst]
  exact ⟨hreplaces.kept h hpruned, hleft⟩

theorem Kept.tryConsume (h : Kept config now l) (key : Key) (ip : IpAddr) :
    ∃ spent, Spends config key now l (l.tryConsume ip now).1 spent ∧
      ((l.tryConsume ip now).2.permits = true → key = .ip ip → 1 ≤ spent) := by
  have hbucket : l.ipBucket ip now =
      (Key.entry l (.ip ip)).getD (TokenBucket.new config.maxRateRpm now) := by
    rw [RateLimiter.ipBucket, h.sameConfig]
    rfl
  rw [RateLimiter.tryConsume, hbucket]
  refine ⟨_, (replaces_ip l ip _).pay h key, ?_⟩
  intro hpermits hkey
  rw [permits_pay] at hpermits
  rw [if_pos hkey]
  exact (congrArg Bool.toNat hpermits).ge

theorem Kept.sourceSection (h : Kept config now l) (key : Key) (k : String) :
    ∃ spent, Spends config key now l (l.sourceSection k now).1 spent ∧
      ((l.sourceSection k now).2.permits = true → key = .source k → 1 ≤ spent) := by
  have hbucket : l.sourceBucket k now =
      (Key.entry l (.source k)).getD (TokenBucket.new config.maxRatePerSource now) := by
    rw [RateLimiter.sourceBucket, h.sameConfig]
    rfl
  rw [RateLimiter.sourceSection_eq, hbucket]
  refine ⟨_, (replaces_source l k _).pay h key, ?_⟩
  intro hpermits hkey
  rw [permits_pay] at hpermits
  rw [if_pos hkey]
  exact (congrArg Bool.toNat hpermits).ge

namespace Call

variable {wants : Option Outcome → Prop} {clock : Instant} {credit : ℕ} {next : Outcome → Body}

/-- An access that spends nothing. -/
theorem funded_access {write : Instant → RateLimiter → RateLimiter}
    {rest : Instant → RateLimiter → Body}
    (h : ∀ now l, clock ≤ now → Kept config now l → Spends config key now l (write now l) 0 ∧
      (rest now l).Funded (account config key) wants now credit) :
    LockedTasks.Body.Funded (account config key) wants clock credit (.access write rest) := by
  intro now l hclock hl
  obtain ⟨⟨hkept, hleft⟩, hrest⟩ := h now l hclock hl
  exact ⟨hkept, 0, hleft, hrest⟩

theorem funded_bucketBody {ip : IpAddr}
    (hnext : ∀ now outcome, clock ≤ now → ∀ spent : ℕ,
      (outcome.permits = true → key = .ip ip → 1 ≤ spent) →
        (next outcome).Funded (account config key) wants now (credit + spent)) :
    (bucketBody ip next).Funded (account config key) wants clock credit := by
  refine funded_access fun now l hclock hl => ⟨hl.detectBurst key ip, ?_⟩
  split
  · refine funded_access fun now l hnow hl =>
      ⟨hl.cooldowns (l.applyCooldown ip now) rfl (fun _ => rfl) key, ?_⟩
    exact hnext now _ (hclock.trans hnow) 0 fun hpermits => by cases hpermits
  · intro now l hnow hl
    obtain ⟨spent, ⟨hkept, hleft⟩, hpermits⟩ := hl.tryConsume key ip
    exact ⟨hkept, spent, hleft, hnext now _ (hclock.trans hnow) spent hpermits⟩

theorem funded_checkIpBody {ip : IpAddr}
    (hnext : ∀ now outcome, clock ≤ now → ∀ spent : ℕ,
      (outcome.permits = true → key = .ip ip → 1 ≤ spent) →
        (next outcome).Funded (account config key) wants now (credit + spent)) :
    (checkIpBody ip next).Funded (account config key) wants clock credit := by
  refine funded_access fun now l hclock hl => ⟨hl.cooldowns l rfl (fun _ => rfl) key, ?_⟩
  rw [LockedTasks.Body.Funded]
  dsimp only
  split
  · next refusal hcool =>
      obtain ⟨_, _, _, rfl⟩ := RateLimiter.cooldownSection_eq_some hcool
      exact hnext now _ hclock 0 fun hpermits => by cases hpermits
  · exact funded_bucketBody fun later outcome hlater => hnext later outcome (hclock.trans hlater)

theorem funded_checkSourceBody {env : Platform} {sourceUrl : String}
    (hnext : ∀ now outcome, clock ≤ now → ∀ spent : ℕ,
      (outcome.permits = true → key = .source (env.normalizeSourceUrl sourceUrl) → 1 ≤ spent) →
        (next outcome).Funded (account config key) wants now (credit + spent)) :
    (checkSourceBody env sourceUrl next).Funded (account config key) wants clock credit := by
  intro now l hclock hl
  obtain ⟨spent, ⟨hkept, hleft⟩, hpermits⟩ :=
    hl.sourceSection key (env.normalizeSourceUrl sourceUrl)
  exact ⟨hkept, spent, hleft, hnext now _ hclock spent hpermits⟩

theorem funded_cleanupBody (hwants : ¬ wants none) :
    cleanupBody.Funded (account config key) wants clock credit := by
  refine funded_access fun reading l _ hl => ⟨hl.cooldowns l rfl (fun _ => rfl) key, ?_⟩
  refine funded_access fun now l hnow hl => ⟨hl.cleanIpBuckets hnow key, ?_⟩
  refine funded_access fun now' l hnow' hl => ⟨hl.cleanSourceBuckets (hnow.trans hnow') key, ?_⟩
  refine funded_access fun now l _ hl =>
    ⟨hl.cooldowns (l.cleanCooldowns reading) rfl (fun _ => rfl) key, ?_⟩
  exact fun h => absurd h hwants

theorem funded_refused {outcome : Outcome} (h : outcome.permits = false) {named : Bool} :
    (.done (some outcome) : Body).Funded (account config key)
      (fun answer => (named && permitted answer) = true) clock credit := by
  intro hwanted
  have hpermits : outcome.permits = true := (Bool.and_eq_true_iff.mp hwanted).2
  exact absurd hpermits (by rw [h]; exact Bool.false_ne_true)

/-- The source is consulted once the address has paid, and the answer is the
address's own when the source has paid too. -/
theorem funded_checkBody (env : Platform) (config : RateLimitConfig) (key : Key) (ip : IpAddr)
    (sourceUrl : Option String) (clock : Instant) :
    (checkBody env ip sourceUrl).Funded (account config key)
      (fun answer => ((check ip sourceUrl).names env key && permitted answer) = true) clock 0 := by
  apply funded_checkIpBody
  intro now outcome _ spent hspent
  rcases outcome with panic | ⟨remaining, resetIn⟩ | ⟨reason, retryAfter⟩
  · exact funded_refused rfl
  · cases sourceUrl with
    | none =>
        intro hwanted
        exact le_add_left (hspent rfl (of_decide_eq_true (Bool.and_eq_true_iff.mp hwanted).1))
    | some source =>
        apply funded_checkSourceBody
        intro later sourceOutcome _ spentThere hspentThere
        rcases sourceOutcome with panic | ⟨left, reset⟩ | ⟨reason, retryAfter⟩
        · exact funded_refused rfl
        · intro hwanted
          have hnamed := (Bool.and_eq_true_iff.mp hwanted).1
          rcases (Bool.or_eq_true _ _).mp hnamed with hkey | hkey
          · exact (le_add_left (hspent rfl (of_decide_eq_true hkey))).trans (Nat.le_add_right _ _)
          · exact le_add_left (hspentThere rfl (of_decide_eq_true hkey))
        · exact funded_refused rfl
  · exact funded_refused rfl

/-- A call is permitted only after it has paid from every bucket it names. -/
theorem funded_body (env : Platform) (config : RateLimitConfig) (key : Key) (call : Call)
    (clock : Instant) : (call.body env).Funded (account config key)
      (fun answer => (call.names env key && permitted answer) = true) clock 0 := by
  cases call with
  | checkIp ip =>
      rw [body]
      apply funded_checkIpBody
      intro now outcome _ spent hspent hwanted
      obtain ⟨hkey, hpermits⟩ := Bool.and_eq_true_iff.mp hwanted
      exact le_add_left (hspent hpermits (of_decide_eq_true hkey))
  | checkSource sourceUrl =>
      rw [body]
      apply funded_checkSourceBody
      intro now outcome _ spent hspent hwanted
      obtain ⟨hkey, hpermits⟩ := Bool.and_eq_true_iff.mp hwanted
      exact le_add_left (hspent hpermits (of_decide_eq_true hkey))
  | check ip sourceUrl => exact funded_checkBody env config key ip sourceUrl clock
  | cleanup => exact funded_cleanupBody (by simp [names])

end Call

namespace RateLimiter

/-- However the lock operations and the accesses of the calls interleave, the calls
that name a bucket, begin after `s` and are permitted by `t` stay within the budget
of that window. -/
theorem contended_window_le (env : Platform) (config : RateLimitConfig) (key : Key)
    {before during : List (LockedTasks.Turn Call Instant)} {s t : Instant}
    (hforward : (readings (before ++ during)).Pairwise (· ≤ ·))
    (hbefore : ∀ now ∈ readings before, now ≤ s) (hst : s ≤ t)
    (hduring : ∀ now ∈ readings during, s ≤ now ∧ now ≤ t) :
    let reached := Machine.final (System.step (Call.body env)) (System.start (new config))
      (before ++ during)
    (reached.returned (fun call answer => call.names env key && permitted answer)
      (jobs (before ++ during)) (jobs before).length : ℚ) ≤
        History.budget (key.maxRate config) s t := by
  obtain ⟨hkept, hreturned⟩ := System.returned_le (account config key)
    (fun call answer => call.names env key && permitted answer)
    (Call.funded_body env config key) (kept_new config) hforward hbefore hst hduring
  have hleft := left_le hkept key
  have hsupply : (account config key).supply t - (account config key).supply s =
      ((key.maxRate config).toNat : ℚ) / 60 * (secs t - secs s) := (mul_sub _ _ _).symm
  rw [hsupply] at hreturned
  exact hreturned.trans (add_le_add_left hleft _)

/-- Two calls race for the token that a first one has left. Both have read the
cooldowns before either has the bucket lock. -/
theorem contended_window_le_race :
    let call := Call.checkIp (.v4 192 0 2 1)
    let config : RateLimitConfig := { (default : RateLimitConfig) with maxRateRpm := 2 }
    let before : List (LockedTasks.Turn Call Instant) :=
      .spawn call :: (List.replicate 9 0).map fun i => .run i 3
    let during : List (LockedTasks.Turn Call Instant) := .spawn call :: .spawn call ::
      (List.replicate 4 1 ++ List.replicate 4 2 ++ [2, 1, 2] ++ List.replicate 4 1 ++
        List.replicate 4 2).map fun i => .run i 7
    let reached := Machine.final (System.step (Call.body default)) (System.start (new config))
      (before ++ during)
    let permissions := reached.returned
      (fun call answer => call.names default (.ip (.v4 192 0 2 1)) && permitted answer)
      (jobs (before ++ during)) (jobs before).length
    permissions = 1 ∧ (permissions : ℚ) ≤ History.budget 2 7 7 := by
  intro call config before during reached permissions
  have hforward : (readings (before ++ during)).Pairwise (· ≤ ·) := by decide
  refine ⟨by decide +kernel, ?_⟩
  exact contended_window_le default config (.ip (.v4 192 0 2 1)) hforward (by decide) le_rfl
    (by decide)

end RateLimiter

end CivicConnect.Webmention
