import CivicConnect.Library.KeyedMap
import CivicConnect.Library.Machine
import CivicConnect.Net.IpAddr
import CivicConnect.Webmention.SourceUrl
import CivicConnect.Webmention.TokenBucket

/-!
# The rate limiter

Each call takes one clock reading. `checkIp` is the composition of its two
lock sections, the cooldown read and the section under the bucket lock, so
that the concurrent model can run other tasks between them.
-/

namespace CivicConnect.Webmention

open Net

inductive RateLimitReason where
  | ipRateExceeded
  | sourceRateExceeded
  | burstCooldown
  deriving DecidableEq, Repr

def RateLimitReason.display : RateLimitReason → String
  | ipRateExceeded => "IP rate limit exceeded"
  | sourceRateExceeded => "Source URL rate limit exceeded"
  | burstCooldown => "Burst detected, in cooldown"

inductive RateLimitResult where
  | allowed (remaining : ℕ) (resetIn : Duration)
  | limited (reason : RateLimitReason) (retryAfter : Duration)
  deriving DecidableEq, Repr

abbrev Outcome := Except Panic RateLimitResult

structure CooldownState where
  cooldownUntil : Instant
  deriving DecidableEq, Repr

structure RateLimiter where
  config : RateLimitConfig
  ipBuckets : KeyedMap IpAddr TokenBucket
  sourceBuckets : KeyedMap String TokenBucket
  cooldowns : KeyedMap IpAddr CooldownState

namespace RateLimiter

def new (config : RateLimitConfig) : RateLimiter := ⟨config, ∅, ∅, ∅⟩

/-- The section under the cooldown read lock: a refusal, or `none` to go on. -/
def cooldownSection (l : RateLimiter) (ip : IpAddr) (now : Instant) : Option RateLimitResult :=
  match l.cooldowns.get ip with
  | some state =>
      if now < state.cooldownUntil then
        some (.limited .burstCooldown (durationSince state.cooldownUntil now))
      else none
  | none => none

def ipBucket (l : RateLimiter) (ip : IpAddr) (now : Instant) : TokenBucket :=
  (l.ipBuckets.get ip).getD (TokenBucket.new l.config.maxRateRpm now)

def sourceBucket (l : RateLimiter) (key : String) (now : Instant) : TokenBucket :=
  (l.sourceBuckets.get key).getD (TokenBucket.new l.config.maxRatePerSource now)

/-- The section under the bucket write lock. -/
def bucketSection (l : RateLimiter) (ip : IpAddr) (now : Instant) : RateLimiter × Outcome :=
  let (bucket, burst) := (l.ipBucket ip now).detectBurst l.config.burstThresholdMultiplier now
  if burst then
    let cooldownDuration := l.config.cooldownDuration
    ({ l with
        ipBuckets := l.ipBuckets.set ip bucket
        cooldowns := l.cooldowns.set ip ⟨now + cooldownDuration⟩ },
      .ok (.limited .burstCooldown cooldownDuration))
  else
    let (bucket, consumed) := bucket.tryConsume now
    let l := { l with ipBuckets := l.ipBuckets.set ip bucket }
    if consumed then (l, .ok (.allowed bucket.remaining l.config.windowDuration))
    else (l, (bucket.timeUntilAvailable).map (.limited .ipRateExceeded))

def checkIp (l : RateLimiter) (ip : IpAddr) (now : Instant) : RateLimiter × Outcome :=
  match l.cooldownSection ip now with
  | some refusal => (l, .ok refusal)
  | none => l.bucketSection ip now

/-- The section of `checkSource` under its lock, for a normalised URL. -/
def sourceSection (l : RateLimiter) (key : String) (now : Instant) : RateLimiter × Outcome :=
  let (bucket, consumed) := (l.sourceBucket key now).tryConsume now
  let l := { l with sourceBuckets := l.sourceBuckets.set key bucket }
  if consumed then (l, .ok (.allowed bucket.remaining l.config.windowDuration))
  else (l, (bucket.timeUntilAvailable).map (.limited .sourceRateExceeded))

def checkSource (env : Platform) (l : RateLimiter) (sourceUrl : String) (now : Instant) :
    RateLimiter × Outcome :=
  l.sourceSection (env.normalizeSourceUrl sourceUrl) now

def check (env : Platform) (l : RateLimiter) (ip : IpAddr) (sourceUrl : Option String)
    (now : Instant) : RateLimiter × Outcome :=
  match l.checkIp ip now with
  | (l, .ok (.allowed remaining resetIn)) =>
      match sourceUrl with
      | none => (l, .ok (.allowed remaining resetIn))
      | some source =>
          match checkSource env l source now with
          | (l, .ok (.allowed _ _)) => (l, .ok (.allowed remaining resetIn))
          | refused => refused
  | refused => refused

def staleThreshold : Duration := fromSecs 300

def isFresh (now : Instant) (bucket : TokenBucket) : Bool :=
  durationSince now bucket.lastRefill < staleThreshold

def cleanIpBuckets (l : RateLimiter) (now : Instant) : RateLimiter :=
  { l with ipBuckets := l.ipBuckets.retain fun _ bucket => isFresh now bucket }

def cleanSourceBuckets (l : RateLimiter) (now : Instant) : RateLimiter :=
  { l with sourceBuckets := l.sourceBuckets.retain fun _ bucket => isFresh now bucket }

def cleanCooldowns (l : RateLimiter) (now : Instant) : RateLimiter :=
  { l with cooldowns := l.cooldowns.retain fun _ state => now < state.cooldownUntil }

def cleanup (l : RateLimiter) (now : Instant) : RateLimiter :=
  ((l.cleanIpBuckets now).cleanSourceBuckets now).cleanCooldowns now

theorem cooldownSection_eq_some {l : RateLimiter} {ip : IpAddr} {now : Instant}
    {refusal : RateLimitResult} (h : l.cooldownSection ip now = some refusal) :
    ∃ state, l.cooldowns.get ip = some state ∧ now < state.cooldownUntil ∧
      refusal = .limited .burstCooldown (durationSince state.cooldownUntil now) := by
  rw [cooldownSection] at h
  cases hget : l.cooldowns.get ip with
  | none => simp [hget] at h
  | some state =>
      by_cases hrunning : now < state.cooldownUntil
      · exact ⟨state, rfl, hrunning, by simpa [hget, hrunning] using h.symm⟩
      · simp [hget, hrunning] at h

def prunedBucket (l : RateLimiter) (ip : IpAddr) (now : Instant) : TokenBucket :=
  { l.ipBucket ip now with
    requestTimes := (l.ipBucket ip now).requestTimes.filter (isRecent now) }

def burstAt (l : RateLimiter) (ip : IpAddr) (now : Instant) : Prop :=
  (l.ipBucket ip now).burstThreshold l.config.burstThresholdMultiplier <
    (l.ipBucket ip now).recentCount now

instance (l : RateLimiter) (ip : IpAddr) (now : Instant) : Decidable (l.burstAt ip now) :=
  inferInstanceAs (Decidable (_ < _))

theorem bucketSection_burst {l : RateLimiter} {ip : IpAddr} {now : Instant}
    (h : l.burstAt ip now) :
    l.bucketSection ip now =
      ({ l with
          ipBuckets := l.ipBuckets.set ip (l.prunedBucket ip now)
          cooldowns := l.cooldowns.set ip ⟨now + l.config.cooldownDuration⟩ },
        .ok (.limited .burstCooldown l.config.cooldownDuration)) := by
  have hdetect := (TokenBucket.detectBurst_snd_iff _ _ _).mpr h
  rw [bucketSection]
  simp only [hdetect, if_true]
  rfl

theorem bucketSection_pay {l : RateLimiter} {ip : IpAddr} {now : Instant}
    (h : ¬ l.burstAt ip now) :
    l.bucketSection ip now =
      ({ l with ipBuckets := l.ipBuckets.set ip ((l.prunedBucket ip now).tryConsume now).1 },
        if ((l.prunedBucket ip now).tryConsume now).2 then
          .ok (.allowed ((l.prunedBucket ip now).tryConsume now).1.remaining
            l.config.windowDuration)
        else (((l.prunedBucket ip now).tryConsume now).1.timeUntilAvailable).map
          (.limited .ipRateExceeded)) := by
  have hdetect := (not_congr (TokenBucket.detectBurst_snd_iff _ _ _)).mpr h
  rw [bucketSection]
  simp only [hdetect, if_false, Bool.false_eq_true]
  rw [prunedBucket, TokenBucket.detectBurst]
  split <;> simp_all

theorem sourceSection_eq (l : RateLimiter) (key : String) (now : Instant) :
    l.sourceSection key now =
      ({ l with sourceBuckets :=
          l.sourceBuckets.set key ((l.sourceBucket key now).tryConsume now).1 },
        if ((l.sourceBucket key now).tryConsume now).2 then
          .ok (.allowed ((l.sourceBucket key now).tryConsume now).1.remaining
            l.config.windowDuration)
        else (((l.sourceBucket key now).tryConsume now).1.timeUntilAvailable).map
          (.limited .sourceRateExceeded)) := by
  rw [sourceSection]
  dsimp only
  split <;> simp_all

end RateLimiter

end CivicConnect.Webmention
