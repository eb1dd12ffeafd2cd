import CivicConnect.Webmention.Refinement

/-!
# What one check does

A check is refused by a running cooldown, by a burst, for want of a token of
the address or of the source, or it is allowed. Each case comes with the state
it leaves behind, so that nothing below unfolds the lock sections again.
-/

namespace CivicConnect.Webmention

open Net

namespace RateLimiter

def InCooldown (l : RateLimiter) (ip : IpAddr) (now : Instant) : Prop :=
  ∃ state, l.cooldowns.get ip = some state ∧ now < state.cooldownUntil

def refusedAddress (l : RateLimiter) (ip : IpAddr) (now : Instant) : RateLimiter :=
  { l with ipBuckets := l.ipBuckets.set ip ((l.prunedBucket ip now).refill now) }

def admittedAddress (l : RateLimiter) (ip : IpAddr) (now : Instant) : RateLimiter :=
  { l with ipBuckets := l.ipBuckets.set ip ((l.prunedBucket ip now).paid now) }

def refusedSource (l : RateLimiter) (key : String) (now : Instant) : RateLimiter :=
  { l with sourceBuckets := l.sourceBuckets.set key ((l.sourceBucket key now).refill now) }

def admittedSource (l : RateLimiter) (key : String) (now : Instant) : RateLimiter :=
  { l with sourceBuckets := l.sourceBuckets.set key ((l.sourceBucket key now).paid now) }

def penalised (l : RateLimiter) (ip : IpAddr) (now : Instant) : RateLimiter :=
  { l with
    ipBuckets := l.ipBuckets.set ip (l.prunedBucket ip now)
    cooldowns := l.cooldowns.set ip ⟨now + l.config.cooldownDuration⟩ }

/-- The address stage lets the request through. -/
structure Admits (l : RateLimiter) (ip : IpAddr) (now : Instant) : Prop where
  idle : ¬ l.InCooldown ip now
  quiet : ¬ l.burstAt ip now
  token : 1 ≤ ((l.ipBucket ip now).refill now).tokens

def ipRemaining (l : RateLimiter) (ip : IpAddr) (now : Instant) : RateLimitResult :=
  .allowed ((l.prunedBucket ip now).paid now).remaining l.config.windowDuration

/-- The state and the answer that a check leaves, one constructor for each way
it can go. -/
inductive Checked (env : Platform) (l : RateLimiter) (ip : IpAddr) (sourceUrl : Option String)
    (now : Instant) : RateLimiter × Outcome → Prop
  | cooldown (state : CooldownState) (hget : l.cooldowns.get ip = some state)
      (hrunning : now < state.cooldownUntil) :
      Checked env l ip sourceUrl now
        (l, .ok (.limited .burstCooldown (durationSince state.cooldownUntil now)))
  | burst (hidle : ¬ l.InCooldown ip now) (hburst : l.burstAt ip now) :
      Checked env l ip sourceUrl now
        (l.penalised ip now, .ok (.limited .burstCooldown l.config.cooldownDuration))
  | address (hidle : ¬ l.InCooldown ip now) (hquiet : ¬ l.burstAt ip now)
      (hshort : ((l.ipBucket ip now).refill now).tokens < 1) :
      Checked env l ip sourceUrl now
        (l.refusedAddress ip now,
          ((l.ipBucket ip now).refill now).timeUntilAvailable.map (.limited .ipRateExceeded))
  | addressOnly (hadmits : l.Admits ip now) (hnone : sourceUrl = none) :
      Checked env l ip sourceUrl now (l.admittedAddress ip now, .ok (l.ipRemaining ip now))
  | source (source : String) (hadmits : l.Admits ip now) (hsome : sourceUrl = some source)
      (hshort : ((l.sourceBucket (env.normalizeSourceUrl source) now).refill now).tokens < 1) :
      Checked env l ip sourceUrl now
        ((l.admittedAddress ip now).refusedSource (env.normalizeSourceUrl source) now,
          ((l.sourceBucket (env.normalizeSourceUrl source) now).refill now).timeUntilAvailable.map
            (.limited .sourceRateExceeded))
  | allowed (source : String) (hadmits : l.Admits ip now) (hsome : sourceUrl = some source)
      (htoken : 1 ≤ ((l.sourceBucket (env.normalizeSourceUrl source) now).refill now).tokens) :
      Checked env l ip sourceUrl now
        ((l.admittedAddress ip now).admittedSource (env.normalizeSourceUrl source) now,
          .ok (l.ipRemaining ip now))

variable {l : RateLimiter} {ip : IpAddr} {now : Instant}

theorem ipBucket_of_get {b : TokenBucket} (h : l.ipBuckets.get ip = some b) :
    l.ipBucket ip now = b := by
  rw [ipBucket, h, Option.getD_some]

@[simp] theorem ipBucket_penalised (l : RateLimiter) (ip : IpAddr) (now t : Instant) :
    (l.penalised ip now).ipBucket ip t = l.prunedBucket ip now :=
  ipBucket_of_get (KeyedMap.get_set_self _ _ _)

@[simp] theorem ipBucket_refusedAddress (l : RateLimiter) (ip : IpAddr) (now t : Instant) :
    (l.refusedAddress ip now).ipBucket ip t = (l.prunedBucket ip now).refill now :=
  ipBucket_of_get (KeyedMap.get_set_self _ _ _)

@[simp] theorem ipBucket_admittedAddress (l : RateLimiter) (ip : IpAddr) (now t : Instant) :
    (l.admittedAddress ip now).ipBucket ip t = (l.prunedBucket ip now).paid now :=
  ipBucket_of_get (KeyedMap.get_set_self _ _ _)

@[simp] theorem sourceBucket_refusedSource (l : RateLimiter) (key : String) (now t : Instant) :
    (l.refusedSource key now).sourceBucket key t = (l.sourceBucket key now).refill now := by
  rw [sourceBucket, refusedSource, KeyedMap.get_set_self, Option.getD_some]

@[simp] theorem sourceBucket_admittedSource (l : RateLimiter) (key : String) (now t : Instant) :
    (l.admittedSource key now).sourceBucket key t = (l.sourceBucket key now).paid now := by
  rw [sourceBucket, admittedSource, KeyedMap.get_set_self, Option.getD_some]

theorem cooldownSection_isSome_iff :
    (l.cooldownSection ip now).isSome = true ↔ l.InCooldown ip now := by
  rw [cooldownSection, InCooldown]
  cases l.cooldowns.get ip with
  | none => simp
  | some state => by_cases hrunning : now < state.cooldownUntil <;> simp [hrunning]

theorem cooldownSection_eq_none_iff :
    l.cooldownSection ip now = none ↔ ¬ l.InCooldown ip now := by
  rw [← cooldownSection_isSome_iff, Bool.not_eq_true, Option.isSome_eq_false_iff,
    Option.isNone_iff_eq_none]

theorem ipDecision_allowed_iff : (l.ipDecision ip now).allowed = true ↔ l.Admits ip now := by
  constructor
  · intro h
    obtain ⟨hidle, hquiet, htoken, _⟩ := checkIp_allowed h
    exact ⟨cooldownSection_eq_none_iff.mp hidle, hquiet, htoken⟩
  · intro h
    rw [ipDecision, cooldownSection_eq_none_iff.mpr h.idle]
    exact (l.bucketSection_allowed_iff ip now).mpr ⟨h.quiet, h.token⟩

theorem checkIp_of_admits (h : l.Admits ip now) :
    l.checkIp ip now = (l.admittedAddress ip now, .ok (l.ipRemaining ip now)) :=
  (checkIp_allowed (ipDecision_allowed_iff.mpr h)).2.2.2

/-- An address that is not admitted is refused by the first stage that stands
in its way. -/
theorem checkIp_of_not_admits (env : Platform) (sourceUrl : Option String)
    (h : ¬ l.Admits ip now) : Checked env l ip sourceUrl now (l.checkIp ip now) := by
  rw [checkIp]
  cases hcooldown : l.cooldownSection ip now with
  | some refusal =>
      obtain ⟨state, hget, hrunning, rfl⟩ := cooldownSection_eq_some hcooldown
      exact .cooldown state hget hrunning
  | none =>
      have hidle := cooldownSection_eq_none_iff.mp hcooldown
      dsimp only
      by_cases hburst : l.burstAt ip now
      · rw [bucketSection_burst hburst]
        exact .burst hidle hburst
      · have hshort : ((l.ipBucket ip now).refill now).tokens < 1 :=
          not_le.mp fun htoken => h ⟨hidle, hburst, htoken⟩
        have hrefused : (l.prunedBucket ip now).tryConsume now =
            ((l.prunedBucket ip now).refill now, false) :=
          TokenBucket.tryConsume_of_lt_one hshort
        rw [bucketSection_pay hburst, hrefused]
        exact .address hidle hburst hshort

theorem sourceSection_of_short {key : String}
    (h : ((l.sourceBucket key now).refill now).tokens < 1) :
    l.sourceSection key now = (l.refusedSource key now,
      ((l.sourceBucket key now).refill now).timeUntilAvailable.map
        (.limited .sourceRateExceeded)) := by
  rw [sourceSection_eq, TokenBucket.tryConsume_of_lt_one h]
  rfl

theorem sourceSection_of_token {key : String}
    (h : 1 ≤ ((l.sourceBucket key now).refill now).tokens) :
    l.sourceSection key now = (l.admittedSource key now,
      .ok (.allowed ((l.sourceBucket key now).paid now).remaining l.config.windowDuration)) := by
  rw [sourceSection_eq, TokenBucket.tryConsume_of_one_le h]
  rfl

/-- Once its address is admitted, only the source can have a request refused. -/
theorem check_of_admits (env : Platform) (source : String) (h : l.Admits ip now) :
    l.check env ip (some source) now =
      if ((l.sourceBucket (env.normalizeSourceUrl source) now).refill now).tokens < 1 then
        ((l.admittedAddress ip now).refusedSource (env.normalizeSourceUrl source) now,
          ((l.sourceBucket (env.normalizeSourceUrl source) now).refill now).timeUntilAvailable.map
            (.limited .sourceRateExceeded))
      else ((l.admittedAddress ip now).admittedSource (env.normalizeSourceUrl source) now,
        .ok (l.ipRemaining ip now)) := by
  rw [check_some env source (ipDecision_allowed_iff.mpr h), checkIp_of_admits h]
  dsimp only
  rw [sourceDecision]
  generalize env.normalizeSourceUrl source = key
  rcases lt_or_ge ((l.sourceBucket key now).refill now).tokens 1 with hshort | htoken
  · have hsection : (l.admittedAddress ip now).sourceSection key now =
        ((l.admittedAddress ip now).refusedSource key now,
          ((l.sourceBucket key now).refill now).timeUntilAvailable.map
            (.limited .sourceRateExceeded)) := sourceSection_of_short hshort
    rw [if_pos hshort, hsection]
    cases ((l.sourceBucket key now).refill now).timeUntilAvailable <;> rfl
  · have hsection : (l.admittedAddress ip now).sourceSection key now =
        ((l.admittedAddress ip now).admittedSource key now,
          .ok (.allowed ((l.sourceBucket key now).paid now).remaining l.config.windowDuration)) :=
      sourceSection_of_token htoken
    rw [if_neg (not_lt.mpr htoken), hsection]
    rfl

theorem checked (env : Platform) (l : RateLimiter) (ip : IpAddr) (sourceUrl : Option String)
    (now : Instant) : Checked env l ip sourceUrl now (l.check env ip sourceUrl now) := by
  by_cases hadmits : l.Admits ip now
  · cases sourceUrl with
    | none =>
        rw [check_none, checkIp_of_admits hadmits]
        exact .addressOnly hadmits rfl
    | some source =>
        rw [check_of_admits env source hadmits]
        split_ifs with hshort
        · exact .source source hadmits rfl hshort
        · exact .allowed source hadmits rfl (not_lt.mp hshort)
  · have hrefused : (l.ipDecision ip now).allowed = false :=
      Bool.eq_false_iff.mpr ((not_congr ipDecision_allowed_iff).mpr hadmits)
    rw [check_refused env sourceUrl hrefused]
    exact checkIp_of_not_admits env sourceUrl hadmits

/-- The limiter after a run of calls, none of which lies after `now`. -/
def Reachable (env : Platform) (config : RateLimitConfig) (now : Instant) (l : RateLimiter) :
    Prop :=
  ∃ events, Nondecreasing events ∧ (∀ e ∈ events, e.now ≤ now) ∧
    Machine.final (step env) (new config) events = l

/-- What the empty limiter has and every call keeps, given that the buckets
stand for a history, holds in every reachable state. -/
theorem Reachable.invariant {env : Platform} {config : RateLimitConfig} {I : RateLimiter → Prop}
    (hnew : I (new config))
    (hstep : ∀ l e history, Agrees config l e.now history → I l → I (step env l e).1)
    (h : Reachable env config now l) : (∃ history, Agrees config l now history) ∧ I l := by
  obtain ⟨events, hevents, hle, rfl⟩ := h
  have hrun : (∃ history, Agrees config (Machine.final (step env) (new config) events)
      (events.foldl (fun _ e => e.now) 0) history) ∧
        I (Machine.final (step env) (new config) events) := by
    refine hevents.legal.invariant
      (I := fun clock l => (∃ history, Agrees config l clock history) ∧ I l)
      ?_ ⟨⟨[], agrees_new config 0⟩, hnew⟩
    rintro clock l e hclock ⟨⟨history, hagrees⟩, hl⟩
    have hnow := hagrees.mono hclock
    exact ⟨⟨_, (hnow.step env).2⟩, hstep l e history hnow hl⟩
  have hclock : ∀ (events : List Event) (clock : Instant), clock ≤ now →
      (∀ e ∈ events, e.now ≤ now) → events.foldl (fun _ e => e.now) clock ≤ now := by
    intro events
    induction events with
    | nil => exact fun clock hc _ => hc
    | cons e events ih =>
        intro clock _ hall
        refine ih e.now (hall e List.mem_cons_self) fun e' he' => ?_
        exact hall e' (List.mem_cons_of_mem e he')
  obtain ⟨⟨history, hagrees⟩, hl⟩ := hrun
  exact ⟨⟨history, hagrees.mono (hclock events 0 (Nat.zero_le now) hle)⟩, hl⟩

theorem Reachable.agrees {env : Platform} {config : RateLimitConfig}
    (h : Reachable env config now l) : ∃ history, Agrees config l now history :=
  (h.invariant (I := fun _ => True) trivial fun _ _ _ _ _ => trivial).1

end RateLimiter

theorem Agrees.ipBucket {config : RateLimitConfig} {l : RateLimiter} {now : Instant}
    {h : History} (hl : Agrees config l now h) (a : IpAddr) :
    Tracks config.maxRateRpm (l.ipBucket a now) now (h.admitted (Stage.isIp a)) := by
  rw [RateLimiter.ipBucket, hl.sameConfig]
  exact (hl.ip a).tracks_getD

theorem Agrees.sourceBucket {config : RateLimitConfig} {l : RateLimiter} {now : Instant}
    {h : History} (hl : Agrees config l now h) (k : String) :
    Tracks config.maxRatePerSource (l.sourceBucket k now) now (h.admitted (Stage.isSource k)) := by
  rw [RateLimiter.sourceBucket, hl.sameConfig]
  exact (hl.source k).tracks_getD

end CivicConnect.Webmention
