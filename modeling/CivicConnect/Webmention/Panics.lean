import CivicConnect.Webmention.RetryAfter

/-!
# Calls that panic

A refused request is told how long to wait, and at a rate of zero the wait is
infinite, which the conversion to a duration does not survive. A rate of zero
is the only cause, and it strikes wherever a bucket of that rate is asked.
-/

namespace CivicConnect.Webmention

open Net

theorem Shaped.timeUntilAvailable_zero {b : TokenBucket} (hb : Shaped 0 b)
    (hshort : b.tokens < 1) : b.timeUntilAvailable = .error .durationFromFloat := by
  have hrate : b.refillRate = 0 := by
    rw [hb.refillRate]
    exact zero_div _
  rw [TokenBucket.timeUntilAvailable, if_neg (not_le.mpr hshort), divF64, if_pos hrate]
  rfl

/-- A bucket of rate zero never holds a token. -/
theorem Shaped.rate_pos {maxRate : UInt32} {b : TokenBucket} (hb : Shaped maxRate b) {t : Instant}
    (htoken : 1 ≤ (b.refill t).tokens) : 0 < maxRate := by
  have hmax : (b.refill t).tokens ≤ b.maxTokens := min_le_right _ _
  rw [hb.maxTokens] at hmax
  have hone : (1 : ℚ) ≤ maxRate.toNat := htoken.trans hmax
  exact UInt32.lt_iff_toNat_lt.mpr (by exact_mod_cast hone)

namespace RateLimiter

def Returns (outcome : Outcome) : Prop := ∃ result, outcome = .ok result

/-- The call asks no bucket whose rate is zero. -/
def Safe (l : RateLimiter) (e : Event) : Prop :=
  match e.call with
  | .checkIp _ => 0 < l.config.maxRateRpm
  | .checkSource _ => 0 < l.config.maxRatePerSource
  | .check ip sourceUrl => 0 < l.config.maxRateRpm ∧
      (sourceUrl.isSome = true → l.Admits ip e.now → 0 < l.config.maxRatePerSource)
  | .cleanup => True

/-- At a rate of zero nothing is ever admitted, so that no burst is seen and no
cooldown is set. -/
def Silent (l : RateLimiter) : Prop :=
  l.config.maxRateRpm = 0 →
    (∀ a b, l.ipBuckets.get a = some b → b.requestTimes = []) ∧ ∀ a, l.cooldowns.get a = none

variable {env : Platform} {config : RateLimitConfig} {l : RateLimiter} {now : Instant}
  {history : History}

theorem Silent.not_inCooldown (h : l.Silent) (hzero : l.config.maxRateRpm = 0) (ip : IpAddr) :
    ¬ l.InCooldown ip now := by
  rintro ⟨state, hget, _⟩
  rw [(h hzero).2 ip] at hget
  cases hget

theorem Silent.requestTimes (h : l.Silent) (hzero : l.config.maxRateRpm = 0) (ip : IpAddr) :
    (l.ipBucket ip now).requestTimes = [] := by
  rw [ipBucket]
  cases hget : l.ipBuckets.get ip with
  | none => rfl
  | some b => exact (h hzero).1 ip b hget

theorem Silent.not_burstAt (h : l.Silent) (hzero : l.config.maxRateRpm = 0) (ip : IpAddr) :
    ¬ l.burstAt ip now := by
  rw [burstAt, TokenBucket.recentCount, h.requestTimes hzero]
  exact Nat.not_lt_zero _

theorem silent_new (config : RateLimitConfig) : (new config).Silent := by
  intro _
  refine ⟨fun a b hget => ?_, fun _ => rfl⟩
  rw [new, KeyedMap.get_empty] at hget
  cases hget

theorem Admits.rate_pos {ip : IpAddr} (h : l.Admits ip now) (hl : Agrees config l now history) :
    0 < l.config.maxRateRpm := by
  rw [hl.sameConfig]
  exact (hl.ipBucket ip).shaped.rate_pos h.token

theorem Silent.check (h : l.Silent) (env : Platform) (hl : Agrees config l now history)
    (ip : IpAddr) (sourceUrl : Option String) : (l.check env ip sourceUrl now).1.Silent := by
  have hpositive : l.Admits ip now → ¬ l.config.maxRateRpm = 0 := by
    intro hadmits hzero
    have hrate := hadmits.rate_pos hl
    rw [hzero] at hrate
    exact absurd hrate (by decide)
  have hchecked := checked env l ip sourceUrl now
  generalize l.check env ip sourceUrl now = r at hchecked
  intro hzero
  cases hchecked with
  | cooldown state hget hrunning => exact h hzero
  | burst hidle hburst => exact absurd hburst (h.not_burstAt hzero ip)
  | address hidle hquiet hshort =>
      refine ⟨?_, (h hzero).2⟩
      intro a b hget
      rw [refusedAddress, KeyedMap.get_set] at hget
      split at hget
      · obtain rfl := Option.some.inj hget
        rw [TokenBucket.refill_requestTimes, prunedBucket, h.requestTimes hzero]
        rfl
      · exact (h hzero).1 a b hget
  | addressOnly hadmits _ => exact absurd hzero (hpositive hadmits)
  | source _ hadmits _ _ => exact absurd hzero (hpositive hadmits)
  | allowed _ hadmits _ _ => exact absurd hzero (hpositive hadmits)

theorem Silent.step (h : l.Silent) {e : Event} (hl : Agrees config l e.now history) :
    (l.step env e).1.Silent := by
  obtain ⟨now, call⟩ := e
  cases call with
  | checkIp ip =>
      have hcheck := h.check env hl ip none
      rwa [check_none] at hcheck
  | checkSource sourceUrl =>
      rw [RateLimiter.step]
      dsimp only
      rw [checkSource, sourceSection_eq]
      exact h
  | check ip sourceUrl => exact h.check env hl ip sourceUrl
  | cleanup =>
      intro hzero
      obtain ⟨hbuckets, hcooldowns⟩ := h hzero
      refine ⟨fun a b hget => ?_, fun a => ?_⟩
      · have hkept : (l.ipBuckets.get a).filter (isFresh now) = some b :=
          (KeyedMap.get_retain l.ipBuckets (fun _ b => isFresh now b) a).symm.trans hget
        exact hbuckets a b (Option.filter_eq_some_iff.mp hkept).1
      · have hkept := KeyedMap.get_retain l.cooldowns
          (fun _ state => decide (now < state.cooldownUntil)) a
        rw [hcooldowns a] at hkept
        exact hkept

end RateLimiter

theorem rate_eq_zero_or_pos (n : UInt32) : n = 0 ∨ 0 < n := by
  rcases Nat.eq_zero_or_pos n.toNat with hzero | hpos
  · exact .inl (UInt32.toNat_inj.mp hzero)
  · exact .inr (UInt32.lt_iff_toNat_lt.mpr hpos)

/-- A bucket without a token can name a wait exactly at a positive rate. -/
theorem Tracks.available_iff {maxRate : UInt32} {b : TokenBucket} {now : Instant}
    {admitted : List Instant} (hb : Tracks maxRate b now admitted)
    (hshort : (b.refill now).tokens < 1) :
    (∃ d, (b.refill now).timeUntilAvailable = .ok d) ↔ 0 < maxRate := by
  have hrefilled := hb.refill
  constructor
  · rintro ⟨d, hd⟩
    rcases rate_eq_zero_or_pos maxRate with rfl | hpos
    · rw [hrefilled.shaped.timeUntilAvailable_zero hshort] at hd
      cases hd
    · exact hpos
  · intro hpos
    exact ⟨_, hrefilled.shaped.timeUntilAvailable_eq hpos hrefilled.tokens_nonneg hshort⟩

namespace RateLimiter

variable {env : Platform} {config : RateLimitConfig} {l : RateLimiter} {now : Instant}
  {history : History}

theorem returns_map_iff {wait : Except Panic Duration} {f : Duration → RateLimitResult} :
    Returns (wait.map f) ↔ ∃ d, wait = .ok d := by
  cases wait with
  | error p => simp [Returns, Except.map]
  | ok d => simp [Returns, Except.map]

theorem answers_iff_returns {outcome : Outcome} :
    (∃ answer, outcome.map respond = .ok answer) ↔ Returns outcome := by
  cases outcome with
  | error p => simp [Returns, Except.map]
  | ok result => simp [Returns, Except.map]

theorem Silent.rate_pos (h : l.Silent) {ip : IpAddr}
    (hactive : l.InCooldown ip now ∨ l.burstAt ip now) : 0 < l.config.maxRateRpm := by
  rcases rate_eq_zero_or_pos l.config.maxRateRpm with hzero | hpos
  · rcases hactive with hrun | hburst
    · exact absurd hrun (h.not_inCooldown hzero ip)
    · exact absurd hburst (h.not_burstAt hzero ip)
  · exact hpos

theorem check_returns_iff (env : Platform) (h : l.Silent) (hl : Agrees config l now history)
    (ip : IpAddr) (sourceUrl : Option String) :
    Returns (l.check env ip sourceUrl now).2 ↔ l.Safe ⟨now, .check ip sourceUrl⟩ := by
  have hchecked := checked env l ip sourceUrl now
  generalize l.check env ip sourceUrl now = r at hchecked
  cases hchecked with
  | cooldown state hget hrunning =>
      have hrun : l.InCooldown ip now := ⟨state, hget, hrunning⟩
      refine iff_of_true ⟨_, rfl⟩ ⟨h.rate_pos (.inl hrun), ?_⟩
      intro _ hadmits
      exact absurd hrun hadmits.idle
  | burst hidle hburst =>
      refine iff_of_true ⟨_, rfl⟩ ⟨h.rate_pos (.inr hburst), ?_⟩
      intro _ hadmits
      exact absurd hburst hadmits.quiet
  | address hidle hquiet hshort =>
      rw [returns_map_iff, (hl.ipBucket ip).available_iff hshort, ← hl.sameConfig]
      refine ⟨fun hpos => ⟨hpos, ?_⟩, fun hsafe => hsafe.1⟩
      intro _ hadmits
      exact absurd hadmits.token (not_le.mpr hshort)
  | addressOnly hadmits hnone =>
      refine iff_of_true ⟨_, rfl⟩ ⟨hadmits.rate_pos hl, ?_⟩
      intro hsome _
      rw [hnone] at hsome
      cases hsome
  | source source hadmits hsome hshort =>
      rw [returns_map_iff, (hl.sourceBucket _).available_iff hshort, ← hl.sameConfig]
      constructor
      · intro hpos
        exact ⟨hadmits.rate_pos hl, fun _ _ => hpos⟩
      · intro hsafe
        exact hsafe.2 (by rw [hsome]; rfl) hadmits
  | allowed source hadmits hsome htoken =>
      refine iff_of_true ⟨_, rfl⟩ ⟨hadmits.rate_pos hl, fun _ _ => ?_⟩
      rw [hl.sameConfig]
      exact (hl.sourceBucket _).shaped.rate_pos htoken

theorem checkSource_returns_iff (env : Platform) (hl : Agrees config l now history)
    (sourceUrl : String) :
    Returns (l.checkSource env sourceUrl now).2 ↔ l.Safe ⟨now, .checkSource sourceUrl⟩ := by
  rw [checkSource]
  generalize env.normalizeSourceUrl sourceUrl = key
  have hb := hl.sourceBucket key
  rw [Safe]
  dsimp only
  rw [hl.sameConfig]
  rcases lt_or_ge ((l.sourceBucket key now).refill now).tokens 1 with hshort | htoken
  · rw [sourceSection_of_short hshort, returns_map_iff, hb.available_iff hshort]
  · rw [sourceSection_of_token htoken]
    exact iff_of_true ⟨_, rfl⟩ (hb.shaped.rate_pos htoken)

/-- One call of the limiter returns a decision exactly where it is safe. -/
theorem step_returns_iff (env : Platform) {e : Event} (h : l.Silent)
    (hl : Agrees config l e.now history) :
    (∀ outcome, (l.step env e).2.answer = some outcome → Returns outcome) ↔ l.Safe e := by
  obtain ⟨now, call⟩ := e
  cases call with
  | checkIp ip =>
      have hcheck := check_returns_iff env h hl ip none
      rw [check_none] at hcheck
      simpa [RateLimiter.step, Safe] using hcheck
  | checkSource sourceUrl =>
      simpa [RateLimiter.step] using checkSource_returns_iff env hl sourceUrl
  | check ip sourceUrl =>
      simpa [RateLimiter.step] using check_returns_iff env h hl ip sourceUrl
  | cleanup => simp [RateLimiter.step, Safe]

theorem mem_answers_iff {events : List Event} {outcome : Outcome} :
    outcome ∈ answers env config events ↔
      ∃ pre e post, events = pre ++ e :: post ∧
        ((Machine.final (step env) (new config) pre).step env e).2.answer = some outcome := by
  rw [answers, List.mem_filterMap]
  constructor
  · rintro ⟨reply, hreply, hanswer⟩
    obtain ⟨before, after, htrace⟩ := List.append_of_mem hreply
    obtain ⟨pre, e, post, rfl, _, hstep, _⟩ := Machine.trace_split htrace
    exact ⟨pre, e, post, rfl, by rw [← hstep, hanswer]⟩
  · rintro ⟨pre, e, post, rfl, hanswer⟩
    refine ⟨_, ?_, hanswer⟩
    rw [replies, Machine.trace_append, Machine.trace_cons]
    exact List.mem_append_right _ List.mem_cons_self

theorem Reachable.silent (h : Reachable env config now l) : l.Silent :=
  (h.invariant (silent_new config) fun _ _ _ hl hs => hs.step hl).2

theorem reachable_of_split {events pre post : List Event} {e : Event}
    (hevents : Nondecreasing events) (heq : events = pre ++ e :: post) :
    Reachable env config e.now (Machine.final (step env) (new config) pre) := by
  have hpair : ((pre ++ e :: post).map Event.now).Pairwise (· ≤ ·) := heq ▸ hevents
  rw [List.map_append, List.pairwise_append] at hpair
  obtain ⟨hpre, _, hcross⟩ := hpair
  refine ⟨pre, hpre, fun e' he' => ?_, rfl⟩
  exact hcross e'.now (List.mem_map_of_mem he') e.now List.mem_cons_self

/-- A run of limiter calls and a request after it all return a decision exactly
where none of them asks a bucket of rate zero. -/
theorem no_panic_iff (env : Platform) (validator : WebmentionValidator) (config : RateLimitConfig)
    {events : List Event} (hevents : Nondecreasing events) (req : CheckRequest) {now : Instant}
    (hnow : ∀ e ∈ events, e.now ≤ now) :
    ((∀ outcome ∈ answers env config events, Returns outcome) ∧
        ∃ answer, (AppState.check env ⟨Machine.final (step env) (new config) events, validator⟩
          req now).2 = .ok answer) ↔
      (∀ pre e post, events = pre ++ e :: post →
          (Machine.final (step env) (new config) pre).Safe e) ∧
        ∀ ip, req.accepted env validator = some ip →
          (Machine.final (step env) (new config) events).Safe ⟨now, .check ip req.source⟩ := by
  refine and_congr ?_ ?_
  · constructor
    · intro h pre e post heq
      have hl : Reachable env config e.now _ := reachable_of_split hevents heq
      obtain ⟨history, hagrees⟩ := hl.agrees
      refine (step_returns_iff env hl.silent hagrees).mp fun outcome hanswer => ?_
      exact h outcome (mem_answers_iff.mpr ⟨pre, e, post, heq, hanswer⟩)
    · intro h outcome houtcome
      obtain ⟨pre, e, post, heq, hanswer⟩ := mem_answers_iff.mp houtcome
      have hl : Reachable env config e.now _ := reachable_of_split hevents heq
      obtain ⟨history, hagrees⟩ := hl.agrees
      exact (step_returns_iff env hl.silent hagrees).mpr (h pre e post heq) outcome hanswer
  · have hl : Reachable env config now (Machine.final (step env) (new config) events) :=
      ⟨events, hevents, hnow, rfl⟩
    obtain ⟨history, hagrees⟩ := hl.agrees
    cases haccepted : req.accepted env validator with
    | none =>
        obtain ⟨_, status, response, hanswer, _⟩ := @AppState.check_rejected env
          ⟨Machine.final (step env) (new config) events, validator⟩ req now haccepted
        simp [hanswer]
    | some ip =>
        rw [AppState.check_accepted now haccepted, answers_iff_returns,
          check_returns_iff env hl.silent hagrees ip req.source]
        simp

theorem no_panic_iff_visit :
    Nondecreasing [⟨0, .check (.v4 192 0 2 1) (some "https://blog.example.com/b")⟩] ∧
      (((∀ outcome ∈ answers blogWeb AppState.slowConfig
            [⟨0, .check (.v4 192 0 2 1) (some "https://blog.example.com/b")⟩], Returns outcome) ∧
          ∃ answer, (AppState.check blogWeb ⟨AppState.visitedLimiter, ⟨default⟩⟩
            AppState.visitPing 0).2 = .ok answer) ↔
        (∀ pre e post, [⟨0, .check (.v4 192 0 2 1) (some "https://blog.example.com/b")⟩] =
              pre ++ e :: post →
            (Machine.final (step blogWeb) (new AppState.slowConfig) pre).Safe e) ∧
          ∀ ip, AppState.visitPing.accepted blogWeb ⟨default⟩ = some ip →
            AppState.visitedLimiter.Safe ⟨0, .check ip AppState.visitPing.source⟩) :=
  ⟨by decide, no_panic_iff blogWeb ⟨default⟩ AppState.slowConfig (by decide) AppState.visitPing
    (by simp)⟩

/-- With MAX_RATE_RPM = 0 the first request panics. -/
theorem zero_rate_panics :
    ¬ ∀ (env : Platform) (validator : WebmentionValidator) (config : RateLimitConfig)
      (events : List Event), Nondecreasing events → ∀ (req : CheckRequest) (now : Instant),
        (∀ e ∈ events, e.now ≤ now) →
          (∀ outcome ∈ answers env config events, Returns outcome) ∧
            ∃ answer, (AppState.check env ⟨Machine.final (step env) (new config) events, validator⟩
              req now).2 = .ok answer := by
  intro hlaw
  let config : RateLimitConfig := { (default : RateLimitConfig) with maxRateRpm := 0 }
  have hpanic : (AppState.check blogWeb ⟨new config, ⟨default⟩⟩ AppState.visitPing 0).2 =
      .error .durationFromFloat := by decide +kernel
  obtain ⟨_, answer, hanswer⟩ :=
    hlaw blogWeb ⟨default⟩ config [] List.Pairwise.nil AppState.visitPing 0 (by simp)
  rw [Machine.final_nil, hpanic] at hanswer
  cases hanswer

end RateLimiter

end CivicConnect.Webmention
