import CivicConnect.Webmention.Checks
import CivicConnect.Webmention.Handlers
import CivicConnect.Webmention.Sites

/-!
# Self-pings at the endpoint

A self-ping is to be refused without a trace in the limiter. The check that
refuses it stands behind the switch that requires a source and a target, so
with that switch off a self-ping is turned away only where something else
turns it away and nothing is written.
-/

namespace CivicConnect.Webmention

open Net

/-- Both URLs are given, are web URLs and share a registrable domain. -/
def CheckRequest.SelfPing (env : Platform) (req : CheckRequest) : Prop :=
  ∃ source target a b, req.source = some source ∧ env.WebHost source a ∧
    req.target = some target ∧ env.WebHost target b ∧
    extractRegistrableDomain env a = extractRegistrableDomain env b

namespace RateLimiter

/-- The same configuration and the same entries, in whatever order. -/
structure SameAs (l l' : RateLimiter) : Prop where
  config : l.config = l'.config
  ipBuckets : ∀ a, l.ipBuckets.get a = l'.ipBuckets.get a
  sourceBuckets : ∀ k, l.sourceBuckets.get k = l'.sourceBuckets.get k
  cooldowns : ∀ a, l.cooldowns.get a = l'.cooldowns.get a

/-- The bucket has nothing to prune and nothing to refill, and it refuses: by
a burst whose cooldown is on record already, or for want of a token. -/
def HoldsStill (l : RateLimiter) (ip : IpAddr) (now : Instant) (b : TokenBucket) : Prop :=
  (∀ t ∈ b.requestTimes, isRecent now t = true) ∧
    ((b.burstThreshold l.config.burstThresholdMultiplier < b.requestTimes.length ∧
        l.cooldowns.get ip = some ⟨now + l.config.cooldownDuration⟩) ∨
      (b.requestTimes.length ≤ b.burstThreshold l.config.burstThresholdMultiplier ∧
        b.lastRefill = now ∧ b.tokens < 1 ∧ b.tokens ≤ b.maxTokens ∧
        ∃ wait, b.timeUntilAvailable = .ok wait))

def RefusesInPlace (l : RateLimiter) (ip : IpAddr) (now : Instant) : Prop :=
  l.InCooldown ip now ∨ ∃ b, l.ipBuckets.get ip = some b ∧ l.HoldsStill ip now b

def Limited (outcome : Outcome) : Prop := ∃ reason wait, outcome = .ok (.limited reason wait)

variable {l : RateLimiter} {ip : IpAddr} {now : Instant}

theorem SameAs.refl (l : RateLimiter) : l.SameAs l :=
  ⟨rfl, fun _ => rfl, fun _ => rfl, fun _ => rfl⟩

theorem prunedBucket_eq_iff {b : TokenBucket} (hget : l.ipBuckets.get ip = some b) :
    l.prunedBucket ip now = b ↔ ∀ t ∈ b.requestTimes, isRecent now t = true := by
  rw [prunedBucket, ipBucket_of_get hget, ← List.filter_eq_self]
  constructor
  · intro h
    exact congrArg TokenBucket.requestTimes h
  · intro h
    rw [h]

end RateLimiter

theorem TokenBucket.refill_eq_self_iff {b : TokenBucket} {now : Instant} :
    b.refill now = b ↔ b.lastRefill = now ∧ b.tokens ≤ b.maxTokens := by
  constructor
  · intro h
    have hlast : b.lastRefill = now := (congrArg TokenBucket.lastRefill h).symm
    refine ⟨hlast, ?_⟩
    have htokens : (b.refill now).tokens = b.tokens := congrArg TokenBucket.tokens h
    exact htokens ▸ min_le_right _ _
  · rintro ⟨rfl, hmax⟩
    simp [TokenBucket.refill, durationSince, asSecsF64, hmax]

namespace RateLimiter

variable {l : RateLimiter} {ip : IpAddr} {now : Instant}

theorem sameAs_penalised_iff :
    l.SameAs (l.penalised ip now) ↔ l.ipBuckets.get ip = some (l.prunedBucket ip now) ∧
      l.cooldowns.get ip = some ⟨now + l.config.cooldownDuration⟩ := by
  rw [← KeyedMap.get_eq_set_iff, ← KeyedMap.get_eq_set_iff]
  constructor
  · intro h
    exact ⟨h.ipBuckets, h.cooldowns⟩
  · rintro ⟨hbuckets, hcooldowns⟩
    exact ⟨rfl, hbuckets, fun _ => rfl, hcooldowns⟩

theorem sameAs_refusedAddress_iff :
    l.SameAs (l.refusedAddress ip now) ↔
      l.ipBuckets.get ip = some ((l.prunedBucket ip now).refill now) := by
  rw [← KeyedMap.get_eq_set_iff]
  exact ⟨SameAs.ipBuckets, fun h => ⟨rfl, h, fun _ => rfl, fun _ => rfl⟩⟩

/-- A payment never leaves a bucket as it was: the token it takes is not made
up for by a refill at the same time. -/
theorem not_sameAs_of_paid {l' : RateLimiter}
    (h : l'.ipBuckets.get ip = some ((l.prunedBucket ip now).paid now)) : ¬ l.SameAs l' := by
  intro hsame
  have hbucket : l.ipBucket ip now = (l.prunedBucket ip now).paid now :=
    ipBucket_of_get ((hsame.ipBuckets ip).trans h)
  have htokens : ((l.ipBucket ip now).refill now).tokens =
      ((l.ipBucket ip now).refill now).tokens - 1 := by
    have hpaid := (l.prunedBucket ip now).refill_paid_tokens now
    rwa [← hbucket] at hpaid
  linarith

theorem burstAt_iff_of_get {b : TokenBucket} (hget : l.ipBuckets.get ip = some b)
    (hrecent : ∀ t ∈ b.requestTimes, isRecent now t = true) :
    l.burstAt ip now ↔
      b.burstThreshold l.config.burstThresholdMultiplier < b.requestTimes.length := by
  rw [burstAt, ipBucket_of_get hget, TokenBucket.recentCount,
    List.countP_eq_length.mpr hrecent]

/-- A bucket that is written back as it was had nothing to prune. -/
theorem recent_of_pruned (l : RateLimiter) (ip : IpAddr) (now : Instant) {b : TokenBucket}
    (hb : b.requestTimes = (l.prunedBucket ip now).requestTimes) :
    ∀ t ∈ b.requestTimes, isRecent now t = true := by
  intro t ht
  rw [hb] at ht
  exact (List.mem_filter.mp ht).2

theorem refusesInPlace_iff_of_burst (hidle : ¬ l.InCooldown ip now) (hburst : l.burstAt ip now) :
    l.RefusesInPlace ip now ↔ l.ipBuckets.get ip = some (l.prunedBucket ip now) ∧
      l.cooldowns.get ip = some ⟨now + l.config.cooldownDuration⟩ := by
  constructor
  · rintro (hrun | ⟨b, hget, hrecent, ⟨_, hrecorded⟩ | ⟨hunder, _⟩⟩)
    · exact absurd hrun hidle
    · rw [(prunedBucket_eq_iff hget).mpr hrecent]
      exact ⟨hget, hrecorded⟩
    · exact absurd ((burstAt_iff_of_get hget hrecent).mp hburst) (not_lt.mpr hunder)
  · rintro ⟨hget, hrecorded⟩
    have hrecent := recent_of_pruned l ip now rfl
    exact .inr ⟨_, hget, hrecent, .inl ⟨(burstAt_iff_of_get hget hrecent).mp hburst, hrecorded⟩⟩

theorem refusesInPlace_iff_of_address (hidle : ¬ l.InCooldown ip now)
    (hquiet : ¬ l.burstAt ip now) (hshort : ((l.ipBucket ip now).refill now).tokens < 1) :
    l.RefusesInPlace ip now ↔
      (∃ wait, ((l.ipBucket ip now).refill now).timeUntilAvailable = .ok wait) ∧
        l.ipBuckets.get ip = some ((l.prunedBucket ip now).refill now) := by
  constructor
  · rintro (hrun | ⟨b, hget, hrecent, ⟨hover, _⟩ | ⟨_, hlast, _, hmax, havailable⟩⟩)
    · exact absurd hrun hidle
    · exact absurd ((burstAt_iff_of_get hget hrecent).mpr hover) hquiet
    · rw [(prunedBucket_eq_iff hget).mpr hrecent, ipBucket_of_get hget,
        TokenBucket.refill_eq_self_iff.mpr ⟨hlast, hmax⟩]
      exact ⟨havailable, hget⟩
  · rintro ⟨havailable, hget⟩
    have hrecent := recent_of_pruned l ip now (b := (l.prunedBucket ip now).refill now) rfl
    exact .inr ⟨_, hget, hrecent,
      .inr ⟨not_lt.mp ((not_congr (burstAt_iff_of_get hget hrecent)).mp hquiet), rfl, hshort,
        min_le_right _ _, havailable⟩⟩

theorem not_refusesInPlace (h : l.Admits ip now) : ¬ l.RefusesInPlace ip now := by
  rintro (hrun | ⟨b, hget, hrecent, ⟨hover, _⟩ | ⟨_, hlast, hshort, hmax, _⟩⟩)
  · exact h.idle hrun
  · exact h.quiet ((burstAt_iff_of_get hget hrecent).mpr hover)
  · have htoken := h.token
    rw [ipBucket_of_get hget, TokenBucket.refill_eq_self_iff.mpr ⟨hlast, hmax⟩] at htoken
    exact not_lt.mpr htoken hshort

/-- A check refuses without a trace exactly where the cooldown of the address is
running or its bucket holds still. -/
theorem check_inPlace_iff (env : Platform) (sourceUrl : Option String) :
    (Limited (l.check env ip sourceUrl now).2 ∧ l.SameAs (l.check env ip sourceUrl now).1) ↔
      l.RefusesInPlace ip now := by
  have hchecked := checked env l ip sourceUrl now
  generalize l.check env ip sourceUrl now = r at hchecked
  cases hchecked with
  | cooldown state hget hrunning =>
      exact ⟨fun _ => .inl ⟨state, hget, hrunning⟩, fun _ => ⟨⟨_, _, rfl⟩, SameAs.refl l⟩⟩
  | burst hidle hburst =>
      rw [refusesInPlace_iff_of_burst hidle hburst, sameAs_penalised_iff]
      exact and_iff_right ⟨_, _, rfl⟩
  | address hidle hquiet hshort =>
      rw [refusesInPlace_iff_of_address hidle hquiet hshort, sameAs_refusedAddress_iff]
      refine and_congr_left fun _ => ?_
      cases ((l.ipBucket ip now).refill now).timeUntilAvailable with
      | error p => simp [Limited, Except.map]
      | ok wait => simp [Limited, Except.map]
  | addressOnly hadmits _ =>
      refine iff_of_false ?_ (not_refusesInPlace hadmits)
      exact fun h => not_sameAs_of_paid (KeyedMap.get_set_self _ _ _) h.2
  | source _ hadmits _ _ =>
      refine iff_of_false ?_ (not_refusesInPlace hadmits)
      exact fun h => not_sameAs_of_paid (KeyedMap.get_set_self _ _ _) h.2
  | allowed _ hadmits _ _ =>
      refine iff_of_false ?_ (not_refusesInPlace hadmits)
      exact fun h => not_sameAs_of_paid (KeyedMap.get_set_self _ _ _) h.2

end RateLimiter

namespace WebmentionValidator

/-- With both switches on, no self-ping is valid. -/
theorem validate_selfPing {env : Platform} {v : WebmentionValidator} {req : CheckRequest}
    (hblock : v.config.blockSelfPing = true) (hrequire : v.config.requireSourceTarget = true)
    (hself : req.SelfPing env) :
    ∃ err, v.validate env req.contentType req.source req.target = .error err := by
  obtain ⟨source, target, a, b, hsource, ha, htarget, hb, hdomain⟩ := hself
  have hrefused : ∃ err, v.validateSourceTarget env (some source) (some target) = .error err := by
    rw [validateSourceTarget_webHosts hrequire ha hb]
    split_ifs with hblank hblank' hother
    · exact ⟨_, rfl⟩
    · exact ⟨_, rfl⟩
    · exact ⟨_, rfl⟩
    · exact absurd ⟨hblock, hdomain⟩ hother
  obtain ⟨err, herr⟩ := hrefused
  rw [validate, hsource, htarget, herr]
  cases v.validateContentType env req.contentType with
  | error err' => exact ⟨err', rfl⟩
  | ok => exact ⟨err, rfl⟩

end WebmentionValidator

namespace AppState

/-- The request is answered with a refusal and the limiter is as before. -/
def RefusedInPlace (env : Platform) (state : AppState) (req : CheckRequest) (now : Instant) :
    Prop :=
  (∃ status response,
      (state.check env req now).2 = .ok (status, response) ∧ response.allowed = false) ∧
    state.limiter.SameAs (state.check env req now).1.limiter

theorem refusedInPlace_of_not_accepted {env : Platform} {state : AppState} {req : CheckRequest}
    (now : Instant) (h : req.accepted env state.validator = none) :
    state.RefusedInPlace env req now := by
  obtain ⟨hstate, hanswer⟩ := check_rejected now h
  refine ⟨hanswer, ?_⟩
  rw [hstate]
  exact RateLimiter.SameAs.refl _

theorem refusedInPlace_of_accepted_iff {env : Platform} {state : AppState} {req : CheckRequest}
    (now : Instant) {ip : IpAddr} (h : req.accepted env state.validator = some ip) :
    state.RefusedInPlace env req now ↔ state.limiter.RefusesInPlace ip now := by
  rw [← RateLimiter.check_inPlace_iff env req.source, RefusedInPlace, check_accepted now h]
  refine and_congr_left fun _ => ?_
  dsimp only
  constructor
  · rintro ⟨status, response, hanswer, hrefused⟩
    cases houtcome : (state.limiter.check env ip req.source now).2 with
    | error p => simp [houtcome, Except.map] at hanswer
    | ok result =>
        cases result with
        | limited reason wait => exact ⟨reason, wait, rfl⟩
        | allowed remaining resetIn =>
            rw [houtcome] at hanswer
            cases hanswer
            cases hrefused
  · rintro ⟨reason, wait, houtcome⟩
    rw [houtcome]
    exact ⟨_, _, rfl, rfl⟩

/-- With self-pings blocked, a self-ping is refused without a trace exactly
where a source and a target are required as well, the content type or the
address is not accepted, or the limiter refuses the address without a trace. -/
theorem self_ping_refused_iff (env : Platform) (state : AppState) (req : CheckRequest)
    (now : Instant) (hblock : state.validator.config.blockSelfPing = true)
    (hself : req.SelfPing env) :
    state.RefusedInPlace env req now ↔
      state.validator.config.requireSourceTarget = true ∨
        state.validator.validateContentType env req.contentType ≠ .ok () ∨
          parseIpAddr req.ip = none ∨
            ∃ ip, parseIpAddr req.ip = some ip ∧ state.limiter.RefusesInPlace ip now := by
  by_cases hrequire : state.validator.config.requireSourceTarget = true
  · have hrejected : req.accepted env state.validator = none := by
      obtain ⟨err, herr⟩ := WebmentionValidator.validate_selfPing hblock hrequire hself
      rw [CheckRequest.accepted, herr]
    exact ⟨fun _ => .inl hrequire, fun _ => refusedInPlace_of_not_accepted now hrejected⟩
  · have hvalidate : state.validator.validate env req.contentType req.source req.target =
        state.validator.validateContentType env req.contentType := by
      rw [WebmentionValidator.validate, WebmentionValidator.validateSourceTarget, if_neg hrequire]
      cases state.validator.validateContentType env req.contentType <;> rfl
    cases htype : state.validator.validateContentType env req.contentType with
    | error err =>
        have hrejected : req.accepted env state.validator = none := by
          rw [CheckRequest.accepted, hvalidate, htype]
        exact ⟨fun _ => .inr (.inl (by simp)),
          fun _ => refusedInPlace_of_not_accepted now hrejected⟩
    | ok =>
        have haccepted : req.accepted env state.validator = parseIpAddr req.ip := by
          rw [CheckRequest.accepted, hvalidate, htype]
        cases hip : parseIpAddr req.ip with
        | none =>
            rw [hip] at haccepted
            exact ⟨fun _ => .inr (.inr (.inl rfl)),
              fun _ => refusedInPlace_of_not_accepted now haccepted⟩
        | some ip =>
            rw [hip] at haccepted
            rw [refusedInPlace_of_accepted_iff now haccepted]
            simp [hrequire]

end AppState

def blogPing : CheckRequest :=
  ⟨"192.0.2.1", some "https://example.com/a", some "https://blog.example.com/b",
    some "application/x-www-form-urlencoded"⟩

theorem blogPing_selfPing : blogPing.SelfPing blogWeb :=
  ⟨_, _, "example.com", "blog.example.com", rfl,
    ⟨blogPage "example.com" "/a", by decide, .inr rfl, rfl⟩, rfl, blogWeb_blog, by decide⟩

namespace AppState

theorem self_ping_refused_iff_default :
    (default : ValidationConfig).blockSelfPing = true ∧ blogPing.SelfPing blogWeb ∧
      (RefusedInPlace blogWeb (new ⟨default⟩ default) blogPing 0 ↔
        (default : ValidationConfig).requireSourceTarget = true ∨
          WebmentionValidator.validateContentType blogWeb ⟨default⟩ blogPing.contentType ≠ .ok () ∨
            parseIpAddr blogPing.ip = none ∨
              ∃ ip, parseIpAddr blogPing.ip = some ip ∧
                (RateLimiter.new default).RefusesInPlace ip 0) :=
  ⟨rfl, blogPing_selfPing,
    self_ping_refused_iff blogWeb (new ⟨default⟩ default) blogPing 0 rfl blogPing_selfPing⟩

/-- A validator that blocks self-pings but requires no source and target lets
one pass, and a token is spent on it. -/
theorem self_ping_allowed :
    ¬ ∀ (env : Platform) (state : AppState) (req : CheckRequest) (now : Instant),
      state.validator.config.blockSelfPing = true → req.SelfPing env →
        state.RefusedInPlace env req now := by
  intro hlaw
  let state : AppState :=
    new ⟨{ (default : ValidationConfig) with requireSourceTarget := false }⟩ default
  have hallowed : (state.check blogWeb blogPing 0).2 = .ok (.ok, ⟨true, none, none, some 59⟩) := by
    decide +kernel
  obtain ⟨⟨status, response, hanswer, hrefused⟩, _⟩ :=
    hlaw blogWeb state blogPing 0 rfl blogPing_selfPing
  rw [hallowed] at hanswer
  cases hanswer
  cases hrefused

end AppState

end CivicConnect.Webmention
