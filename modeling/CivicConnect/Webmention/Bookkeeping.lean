import CivicConnect.Webmention.Bursts
import CivicConnect.Webmention.Checks
import CivicConnect.Webmention.Sites

/-!
# How many timestamps a bucket keeps

Every admitted request leaves a timestamp in its bucket. Burst detection drops
the old ones, but it looks at the buckets of addresses only: a source bucket
keeps all of its timestamps for as long as it is kept itself. An address bucket
stays within the threshold unless rounding has lifted the threshold itself.
-/

namespace CivicConnect.Webmention

open Net

/-- The formula of the burst threshold for a bucket with the given rate. -/
def RateLimitConfig.timesLimit (config : RateLimitConfig) (maxRate : UInt32) : ℕ∞ :=
  { config with maxRateRpm := maxRate }.burstFormula

namespace TokenBucket

variable {b : TokenBucket} {now : Instant}

theorem length_paid_requestTimes (b : TokenBucket) (now : Instant) :
    ((b.paid now).requestTimes.length : ℕ∞) = b.requestTimes.length + 1 := by
  rw [paid, List.length_append, List.length_singleton, Nat.cast_add, Nat.cast_one]

/-- The cast only lowers the threshold. -/
theorem burstThreshold_le_burstLimit {config : RateLimitConfig}
    (h : b.maxTokens = config.maxRateRpm.toNat) :
    (b.burstThreshold config.burstThresholdMultiplier : ℕ∞) ≤ config.burstLimit := by
  rw [burstThreshold, RateLimitConfig.burstLimit, h]
  cases config.burstThresholdMultiplier with
  | finite q => exact Nat.cast_le.mpr (Nat.min_le_left _ _)
  | inf => exact le_top
  | negInf => exact le_rfl
  | nan => exact le_rfl

end TokenBucket

namespace RateLimiter

/-- The configuration is kept, and each bucket has the size that its rate gives
it. -/
structure Sized (config : RateLimitConfig) (l : RateLimiter) : Prop where
  sameConfig : l.config = config
  ip : ∀ a b, l.ipBuckets.get a = some b → b.maxTokens = config.maxRateRpm.toNat
  source : ∀ k b, l.sourceBuckets.get k = some b → b.maxTokens = config.maxRatePerSource.toNat

/-- No bucket keeps more timestamps than the threshold and one. -/
structure BoundedTimes (config : RateLimitConfig) (l : RateLimiter) : Prop where
  ip : ∀ a b, l.ipBuckets.get a = some b →
    (b.requestTimes.length : ℕ∞) ≤ config.timesLimit config.maxRateRpm + 1
  source : ∀ k b, l.sourceBuckets.get k = some b →
    (b.requestTimes.length : ℕ∞) ≤ config.timesLimit config.maxRatePerSource + 1

/-- The call takes a token from the bucket of the address. -/
def PaysIp (l : RateLimiter) (e : Event) (a : IpAddr) : Prop :=
  l.Admits a e.now ∧
    match e.call with
    | .checkIp ip => ip = a
    | .check ip _ => ip = a
    | _ => False

/-- The call takes a token from the source bucket. -/
def PaysSource (env : Platform) (l : RateLimiter) (e : Event) (key : String) : Prop :=
  1 ≤ ((l.sourceBucket key e.now).refill e.now).tokens ∧
    match e.call with
    | .checkSource sourceUrl => env.normalizeSourceUrl sourceUrl = key
    | .check ip (some source) => l.Admits ip e.now ∧ env.normalizeSourceUrl source = key
    | _ => False

variable {env : Platform} {config : RateLimitConfig} {l : RateLimiter} {e : Event}

/-- Where the bucket of an address comes from. -/
inductive IpBucketFrom (l : RateLimiter) (e : Event) (a : IpAddr) : TokenBucket → Prop
  | kept {b : TokenBucket} (hget : l.ipBuckets.get a = some b) : IpBucketFrom l e a b
  | pruned : IpBucketFrom l e a (l.prunedBucket a e.now)
  | refilled : IpBucketFrom l e a ((l.prunedBucket a e.now).refill e.now)
  | paid (hpays : l.PaysIp e a) : IpBucketFrom l e a ((l.prunedBucket a e.now).paid e.now)

/-- Where the bucket of a source comes from. -/
inductive SourceBucketFrom (env : Platform) (l : RateLimiter) (e : Event) (k : String) :
    TokenBucket → Prop
  | kept {b : TokenBucket} (hget : l.sourceBuckets.get k = some b) : SourceBucketFrom env l e k b
  | refilled : SourceBucketFrom env l e k ((l.sourceBucket k e.now).refill e.now)
  | paid (hpays : l.PaysSource env e k) :
      SourceBucketFrom env l e k ((l.sourceBucket k e.now).paid e.now)

theorem ipBucketFrom_set {ip a : IpAddr} {new b : TokenBucket}
    (hnew : IpBucketFrom l e ip new) (h : (l.ipBuckets.set ip new).get a = some b) :
    IpBucketFrom l e a b := by
  rw [KeyedMap.get_set] at h
  split at h
  · next heq =>
      obtain rfl := Option.some.inj h
      exact heq ▸ hnew
  · exact .kept h

theorem sourceBucketFrom_set {key k : String} {new b : TokenBucket}
    (hnew : SourceBucketFrom env l e key new) (h : (l.sourceBuckets.set key new).get k = some b) :
    SourceBucketFrom env l e k b := by
  rw [KeyedMap.get_set] at h
  split at h
  · next heq =>
      obtain rfl := Option.some.inj h
      exact heq ▸ hnew
  · exact .kept h

theorem check_ipBucketFrom {now : Instant} {ip a : IpAddr} {sourceUrl : Option String}
    {b : TokenBucket} (h : (l.check env ip sourceUrl now).1.ipBuckets.get a = some b) :
    IpBucketFrom l ⟨now, .check ip sourceUrl⟩ a b := by
  have hchecked := checked env l ip sourceUrl now
  generalize l.check env ip sourceUrl now = r at hchecked h
  cases hchecked with
  | cooldown state hget hrunning => exact .kept h
  | burst hidle hburst => exact ipBucketFrom_set .pruned h
  | address hidle hquiet hshort => exact ipBucketFrom_set .refilled h
  | addressOnly hadmits _ => exact ipBucketFrom_set (.paid ⟨hadmits, rfl⟩) h
  | source _ hadmits _ _ => exact ipBucketFrom_set (.paid ⟨hadmits, rfl⟩) h
  | allowed _ hadmits _ _ => exact ipBucketFrom_set (.paid ⟨hadmits, rfl⟩) h

theorem check_sourceBucketFrom {now : Instant} {ip : IpAddr} {sourceUrl : Option String}
    {k : String} {b : TokenBucket}
    (h : (l.check env ip sourceUrl now).1.sourceBuckets.get k = some b) :
    SourceBucketFrom env l ⟨now, .check ip sourceUrl⟩ k b := by
  have hchecked := checked env l ip sourceUrl now
  generalize l.check env ip sourceUrl now = r at hchecked h
  cases hchecked with
  | cooldown state hget hrunning => exact .kept h
  | burst hidle hburst => exact .kept h
  | address hidle hquiet hshort => exact .kept h
  | addressOnly hadmits _ => exact .kept h
  | source _ hadmits _ _ => exact sourceBucketFrom_set .refilled h
  | allowed source hadmits hsome htoken =>
      subst hsome
      exact sourceBucketFrom_set (.paid ⟨htoken, hadmits, rfl⟩) h

/-- A check of the address alone is a check that names no source. -/
theorem step_checkIp (env : Platform) (l : RateLimiter) (ip : IpAddr) (now : Instant) :
    (l.step env ⟨now, .checkIp ip⟩).1 = (l.check env ip none now).1 := by
  rw [check_none]
  rfl

theorem step_checkSource (env : Platform) (l : RateLimiter) (sourceUrl : String) (now : Instant) :
    (l.step env ⟨now, .checkSource sourceUrl⟩).1 =
      (l.sourceSection (env.normalizeSourceUrl sourceUrl) now).1 := by
  rw [RateLimiter.step]
  dsimp only
  rw [checkSource]

theorem step_ipBucketFrom {a : IpAddr} {b : TokenBucket}
    (h : (l.step env e).1.ipBuckets.get a = some b) : IpBucketFrom l e a b := by
  obtain ⟨now, call⟩ := e
  cases call with
  | checkIp ip =>
      rw [step_checkIp] at h
      cases check_ipBucketFrom h with
      | kept hget => exact .kept hget
      | pruned => exact .pruned
      | refilled => exact .refilled
      | paid hpays => exact .paid hpays
  | checkSource sourceUrl =>
      rw [step_checkSource, sourceSection_eq] at h
      exact .kept h
  | check ip sourceUrl => exact check_ipBucketFrom h
  | cleanup =>
      have hkept := (KeyedMap.get_retain l.ipBuckets (fun _ b => isFresh now b) a).symm.trans h
      exact .kept (Option.filter_eq_some_iff.mp hkept).1

theorem step_sourceBucketFrom {k : String} {b : TokenBucket}
    (h : (l.step env e).1.sourceBuckets.get k = some b) : SourceBucketFrom env l e k b := by
  obtain ⟨now, call⟩ := e
  cases call with
  | checkIp ip =>
      rw [step_checkIp] at h
      cases check_sourceBucketFrom h with
      | kept hget => exact .kept hget
      | refilled => exact .refilled
      | paid hpays => exact absurd hpays.2 id
  | checkSource sourceUrl =>
      rw [step_checkSource, sourceSection_eq] at h
      rcases lt_or_ge ((l.sourceBucket (env.normalizeSourceUrl sourceUrl) now).refill now).tokens 1
        with hshort | htoken
      · rw [TokenBucket.tryConsume_of_lt_one hshort] at h
        exact sourceBucketFrom_set .refilled h
      · rw [TokenBucket.tryConsume_of_one_le htoken] at h
        exact sourceBucketFrom_set (.paid ⟨htoken, rfl⟩) h
  | check ip sourceUrl => exact check_sourceBucketFrom h
  | cleanup =>
      have hkept := (KeyedMap.get_retain l.sourceBuckets (fun _ b => isFresh now b) k).symm.trans h
      exact .kept (Option.filter_eq_some_iff.mp hkept).1

theorem check_get_of_admits {now : Instant} {ip : IpAddr} (sourceUrl : Option String)
    (h : l.Admits ip now) :
    (l.check env ip sourceUrl now).1.ipBuckets.get ip =
      some ((l.prunedBucket ip now).paid now) := by
  cases sourceUrl with
  | none =>
      rw [check_none, checkIp_of_admits h]
      exact KeyedMap.get_set_self _ _ _
  | some source =>
      rw [check_of_admits env source h]
      split_ifs
      · exact KeyedMap.get_set_self _ _ _
      · exact KeyedMap.get_set_self _ _ _

/-- A payment shows in the bucket it is made from. -/
theorem PaysIp.get_step {a : IpAddr} (h : l.PaysIp e a) :
    (l.step env e).1.ipBuckets.get a = some ((l.prunedBucket a e.now).paid e.now) := by
  obtain ⟨now, call⟩ := e
  obtain ⟨hadmits, hcall⟩ := h
  cases call with
  | checkIp ip =>
      obtain rfl : ip = a := hcall
      rw [step_checkIp]
      exact check_get_of_admits none hadmits
  | check ip sourceUrl =>
      obtain rfl : ip = a := hcall
      exact check_get_of_admits sourceUrl hadmits
  | checkSource sourceUrl => exact absurd hcall id
  | cleanup => exact absurd hcall id

/-- A payment shows in the bucket it is made from. -/
theorem PaysSource.get_step {key : String} (h : l.PaysSource env e key) :
    (l.step env e).1.sourceBuckets.get key = some ((l.sourceBucket key e.now).paid e.now) := by
  obtain ⟨now, call⟩ := e
  obtain ⟨htoken, hcall⟩ := h
  cases call with
  | checkSource sourceUrl =>
      obtain rfl : env.normalizeSourceUrl sourceUrl = key := hcall
      rw [step_checkSource, sourceSection_of_token htoken]
      exact KeyedMap.get_set_self _ _ _
  | check ip sourceUrl =>
      cases sourceUrl with
      | none => exact absurd hcall id
      | some source =>
          obtain ⟨hadmits, rfl⟩ := hcall
          rw [RateLimiter.step]
          dsimp only
          rw [check_of_admits env source hadmits, if_neg (not_lt.mpr htoken)]
          exact KeyedMap.get_set_self _ _ _
  | checkIp ip => exact absurd hcall id
  | cleanup => exact absurd hcall id

theorem check_config (env : Platform) (l : RateLimiter) (ip : IpAddr) (sourceUrl : Option String)
    (now : Instant) : (l.check env ip sourceUrl now).1.config = l.config := by
  have hchecked := checked env l ip sourceUrl now
  generalize l.check env ip sourceUrl now = r at hchecked
  cases hchecked <;> rfl

theorem step_config (env : Platform) (l : RateLimiter) (e : Event) :
    (l.step env e).1.config = l.config := by
  obtain ⟨now, call⟩ := e
  cases call with
  | checkIp ip =>
      rw [step_checkIp]
      exact check_config env l ip none now
  | checkSource sourceUrl => rw [step_checkSource, sourceSection_eq]
  | check ip sourceUrl => exact check_config env l ip sourceUrl now
  | cleanup => rfl

theorem sized_new (config : RateLimitConfig) : Sized config (new config) where
  sameConfig := rfl
  ip _ _ h := absurd h (Option.some_ne_none _).symm
  source _ _ h := absurd h (Option.some_ne_none _).symm

theorem boundedTimes_new (config : RateLimitConfig) : BoundedTimes config (new config) where
  ip _ _ h := absurd h (Option.some_ne_none _).symm
  source _ _ h := absurd h (Option.some_ne_none _).symm

namespace Sized

theorem ipBucket (h : Sized config l) (a : IpAddr) (now : Instant) :
    (l.ipBucket a now).maxTokens = config.maxRateRpm.toNat := by
  rw [RateLimiter.ipBucket]
  cases hget : l.ipBuckets.get a with
  | none =>
      rw [Option.getD_none, h.sameConfig]
      rfl
  | some b => exact h.ip a b hget

theorem sourceBucket (h : Sized config l) (k : String) (now : Instant) :
    (l.sourceBucket k now).maxTokens = config.maxRatePerSource.toNat := by
  rw [RateLimiter.sourceBucket]
  cases hget : l.sourceBuckets.get k with
  | none =>
      rw [Option.getD_none, h.sameConfig]
      rfl
  | some b => exact h.source k b hget

theorem step (h : Sized config l) (env : Platform) (e : Event) :
    Sized config (l.step env e).1 where
  sameConfig := (step_config env l e).trans h.sameConfig
  ip a b hget := by
    cases step_ipBucketFrom hget with
    | kept hold => exact h.ip a b hold
    | pruned => exact h.ipBucket a e.now
    | refilled => exact h.ipBucket a e.now
    | paid _ => exact h.ipBucket a e.now
  source k b hget := by
    cases step_sourceBucketFrom hget with
    | kept hold => exact h.source k b hold
    | refilled => exact h.sourceBucket k e.now
    | paid _ => exact h.sourceBucket k e.now

end Sized

/-- The call takes a token from a source bucket that already holds more
timestamps than its burst threshold. -/
def OverfillsSource (env : Platform) (config : RateLimitConfig) (l : RateLimiter) (e : Event) :
    Prop :=
  ∃ key b, l.PaysSource env e key ∧ l.sourceBuckets.get key = some b ∧
    config.timesLimit config.maxRatePerSource < (b.requestTimes.length : ℕ∞)

/-- The call takes a token from an address bucket that already holds more
timestamps of the last ten seconds than its burst threshold. -/
def OverfillsAddress (config : RateLimitConfig) (l : RateLimiter) (e : Event) : Prop :=
  ∃ a b, l.PaysIp e a ∧ l.ipBuckets.get a = some b ∧
    config.timesLimit config.maxRateRpm < (b.recentCount e.now : ℕ∞)

def Overfills (env : Platform) (config : RateLimitConfig) (l : RateLimiter) (e : Event) : Prop :=
  OverfillsSource env config l e ∨ OverfillsAddress config l e

theorem length_prunedBucket (l : RateLimiter) (a : IpAddr) (now : Instant) :
    (l.prunedBucket a now).requestTimes.length = (l.ipBucket a now).recentCount now := by
  rw [prunedBucket, TokenBucket.recentCount, List.countP_eq_length_filter]

/-- The detector, which looks before the payment, leaves no room for that where
its threshold is not above the formula. -/
theorem Sized.not_overfillsAddress (h : Sized config l) (hlimit : config.burstLimit ≤
    config.timesLimit config.maxRateRpm) : ¬ OverfillsAddress config l e := by
  rintro ⟨a, b, ⟨hadmits, _⟩, hget, hfull⟩
  have hquiet := hadmits.quiet
  rw [burstAt, not_lt, h.sameConfig, ipBucket_of_get hget] at hquiet
  have hthreshold := TokenBucket.burstThreshold_le_burstLimit (h.ip a b hget)
  exact absurd hfull (not_lt.mpr
    ((Nat.cast_le.mpr hquiet).trans (hthreshold.trans hlimit)))

namespace BoundedTimes

theorem ipBucket (h : BoundedTimes config l) (a : IpAddr) (now : Instant) :
    ((l.ipBucket a now).requestTimes.length : ℕ∞) ≤ config.timesLimit config.maxRateRpm + 1 := by
  rw [RateLimiter.ipBucket]
  cases hget : l.ipBuckets.get a with
  | none => exact zero_le
  | some b => exact h.ip a b hget

theorem sourceBucket (h : BoundedTimes config l) (k : String) (now : Instant) :
    ((l.sourceBucket k now).requestTimes.length : ℕ∞) ≤
      config.timesLimit config.maxRatePerSource + 1 := by
  rw [RateLimiter.sourceBucket]
  cases hget : l.sourceBuckets.get k with
  | none => exact zero_le
  | some b => exact h.source k b hget

/-- Pruning precedes every payment of an address. -/
theorem ip_step (h : BoundedTimes config l) (hroom : ¬ OverfillsAddress config l e) {a : IpAddr}
    {b : TokenBucket} (hget : (l.step env e).1.ipBuckets.get a = some b) :
    (b.requestTimes.length : ℕ∞) ≤ config.timesLimit config.maxRateRpm + 1 := by
  have hpruned : ((l.prunedBucket a e.now).requestTimes.length : ℕ∞) ≤
      config.timesLimit config.maxRateRpm + 1 :=
    (Nat.cast_le.mpr (List.length_filter_le _ _)).trans (h.ipBucket a e.now)
  cases step_ipBucketFrom hget with
  | kept hold => exact h.ip a b hold
  | pruned => exact hpruned
  | refilled => exact hpruned
  | paid hpays =>
      rw [TokenBucket.length_paid_requestTimes, length_prunedBucket]
      apply add_le_add_left
      cases hold : l.ipBuckets.get a with
      | none =>
          rw [RateLimiter.ipBucket, hold]
          exact zero_le
      | some old =>
          rw [ipBucket_of_get hold]
          exact not_lt.mp fun hfull => hroom ⟨a, old, hpays, hold, hfull⟩

/-- Nothing prunes a source bucket: only a payment from a full one breaks the
bound. -/
theorem source_step (h : BoundedTimes config l) (hroom : ¬ OverfillsSource env config l e)
    {k : String} {b : TokenBucket} (hget : (l.step env e).1.sourceBuckets.get k = some b) :
    (b.requestTimes.length : ℕ∞) ≤ config.timesLimit config.maxRatePerSource + 1 := by
  cases step_sourceBucketFrom hget with
  | kept hold => exact h.source k b hold
  | refilled => exact h.sourceBucket k e.now
  | paid hpays =>
      rw [TokenBucket.length_paid_requestTimes]
      apply add_le_add_left
      rw [RateLimiter.sourceBucket]
      cases hold : l.sourceBuckets.get k with
      | none => exact zero_le
      | some old => exact not_lt.mp fun hfull => hroom ⟨k, old, hpays, hold, hfull⟩

theorem step_iff (h : BoundedTimes config l) :
    BoundedTimes config (l.step env e).1 ↔ ¬ Overfills env config l e := by
  constructor
  · rintro hafter (⟨key, b, hpays, hget, hfull⟩ | ⟨a, b, hpays, hget, hfull⟩)
    · have hlong := hafter.source key _ hpays.get_step
      have hbucket : l.sourceBucket key e.now = b := by
        rw [RateLimiter.sourceBucket, hget, Option.getD_some]
      rw [hbucket, TokenBucket.length_paid_requestTimes] at hlong
      exact absurd hfull (not_lt.mpr ((ENat.add_le_add_iff_right ENat.one_ne_top).mp hlong))
    · have hlong := hafter.ip a _ hpays.get_step
      rw [TokenBucket.length_paid_requestTimes, length_prunedBucket, ipBucket_of_get hget] at hlong
      exact absurd hfull (not_lt.mpr ((ENat.add_le_add_iff_right ENat.one_ne_top).mp hlong))
  · intro hroom
    obtain ⟨hsource, haddress⟩ := not_or.mp hroom
    exact ⟨fun a b => h.ip_step haddress, fun k b => h.source_step hsource⟩

end BoundedTimes

theorem sized_run (env : Platform) (config : RateLimitConfig) (events : List Event) :
    Sized config (Machine.final (RateLimiter.step env) (new config) events) :=
  Machine.invariant_final (I := Sized config) (fun e _ _ h => h.step env e) (sized_new config)

/-- The timestamps stay bounded along a run exactly when no call of it takes a
token from a bucket that is full of timestamps; and where rounding does not lift
the threshold, that can be a source bucket only. -/
theorem requestTimes_bounded_iff (env : Platform) (config : RateLimitConfig)
    (events : List Event) :
    ((∀ before later, events = before ++ later →
        BoundedTimes config (Machine.final (RateLimiter.step env) (new config) before)) ↔
      ∀ before e later, events = before ++ e :: later →
        ¬ Overfills env config (Machine.final (RateLimiter.step env) (new config) before) e) ∧
    (config.burstThresholdMultiplier.Single → config.maxRateRpm.toNat < 2 ^ 28 →
      config.burstFormula < 2 ^ 49 →
      ((∀ before later, events = before ++ later →
          BoundedTimes config (Machine.final (RateLimiter.step env) (new config) before)) ↔
        ∀ before e later, events = before ++ e :: later →
          ¬ OverfillsSource env config
            (Machine.final (RateLimiter.step env) (new config) before) e)) := by
  have hbounded : (∀ before later, events = before ++ later →
        BoundedTimes config (Machine.final (RateLimiter.step env) (new config) before)) ↔
      ∀ before e later, events = before ++ e :: later →
        ¬ Overfills env config (Machine.final (RateLimiter.step env) (new config) before) e := by
    apply Machine.always_iff (J := fun _ => True) (P := fun l e => ¬ Overfills env config l e)
    · exact fun _ _ _ _ => trivial
    · exact fun e _ l _ hbounded => hbounded.step_iff
    · exact trivial
    · exact boundedTimes_new config
  refine ⟨hbounded, fun hsingle hrate hsmall => hbounded.trans ?_⟩
  have hlimit := burstLimit_le_burstFormula hsingle hrate hsmall
  have haddress := fun before e =>
    (sized_run env config before).not_overfillsAddress (e := e) hlimit
  simp only [Overfills, haddress, or_false]

/-- One source visited every eleven seconds: its calls are never refused, and
each leaves a timestamp behind. -/
def steadyVisits : List Event :=
  (List.range 7).map fun n => ⟨fromSecs (11 * n), .checkSource "https://site.example/c"⟩

theorem timesLimit_default :
    (default : RateLimitConfig).timesLimit (default : RateLimitConfig).maxRatePerSource = 5 := by
  have hfloor : ⌊max (max ((10 : ℚ) / 6) 1 * 3) 3⌋₊ = 5 := by norm_num
  exact congrArg Nat.cast hfloor

theorem requestTimes_bounded_iff_steady :
    (default : RateLimitConfig).burstThresholdMultiplier.Single ∧
      (default : RateLimitConfig).maxRateRpm.toNat < 2 ^ 28 ∧
      (default : RateLimitConfig).burstFormula < 2 ^ 49 ∧
      ((∀ before later, steadyVisits = before ++ later →
          BoundedTimes default (Machine.final (RateLimiter.step blogWeb) (new default) before)) ↔
        ∀ before e later, steadyVisits = before ++ e :: later →
          ¬ OverfillsSource blogWeb default
            (Machine.final (RateLimiter.step blogWeb) (new default) before) e) := by
  have hsingle : (default : RateLimitConfig).burstThresholdMultiplier.Single := by
    intro q hq
    obtain rfl : (3 : ℚ) = q := F32.finite.inj hq
    exact ⟨3, 0, by norm_num, by norm_num⟩
  have hrate : (default : RateLimitConfig).maxRateRpm.toNat < 2 ^ 28 := by decide
  have hfloor : ⌊max (max ((60 : ℚ) / 6) 1 * 3) 3⌋₊ = 30 := by norm_num
  have hformula : (default : RateLimitConfig).burstFormula = 30 := congrArg Nat.cast hfloor
  have hsmall : (default : RateLimitConfig).burstFormula < 2 ^ 49 := by
    rw [hformula]
    norm_num
  exact ⟨hsingle, hrate, hsmall,
    (requestTimes_bounded_iff blogWeb default steadyVisits).2 hsingle hrate hsmall⟩

theorem steady_visits_pile_up :
    ¬ ∀ (env : Platform) (config : RateLimitConfig) (events : List Event), Nondecreasing events →
      BoundedTimes config (Machine.final (RateLimiter.step env) (new config) events) := by
  intro hlaw
  have hbounded := hlaw blogWeb default steadyVisits (by decide)
  have hlength : ((Machine.final (RateLimiter.step blogWeb) (new default)
      steadyVisits).sourceBuckets.get "https://site.example/c").map
        (fun b => b.requestTimes.length) = some 7 := by decide +kernel
  obtain ⟨b, hget, hseven⟩ := Option.map_eq_some_iff.mp hlength
  have hle := hbounded.source _ b hget
  rw [timesLimit_default, hseven] at hle
  exact absurd hle (by decide)

end RateLimiter

end CivicConnect.Webmention
