import CivicConnect.Webmention.BucketRefinement

/-!
# The limiter refines its decision history

The maps of the limiter agree with a history when every entry tracks the
admissions of its key and every cooldown still running is the one of the
last burst. Requests and cleanups keep the agreement, and while it holds
each lock section returns the verdict of the history.
-/

namespace CivicConnect.Webmention

open Net

structure Agrees (config : RateLimitConfig) (l : RateLimiter) (now : Instant) (h : History) :
    Prop where
  sameConfig : l.config = config
  ip : ∀ a, EntryTracks config.maxRateRpm (l.ipBuckets.get a) now (h.admitted (Stage.isIp a))
  source : ∀ k, EntryTracks config.maxRatePerSource (l.sourceBuckets.get k) now
    (h.admitted (Stage.isSource k))
  cooldown : ∀ a t, now ≤ t → l.cooldownSection a t = h.cooldownVerdict config a t

variable {config : RateLimitConfig} {l : RateLimiter} {now : Instant} {h : History}

theorem agrees_new (config : RateLimitConfig) (now : Instant) :
    Agrees config (RateLimiter.new config) now [] where
  sameConfig := rfl
  ip _ := idle_nil _ _
  source _ := idle_nil _ _
  cooldown _ _ _ := rfl

theorem Agrees.mono {now' : Instant} (hl : Agrees config l now h) (hle : now ≤ now') :
    Agrees config l now' h where
  sameConfig := hl.sameConfig
  ip a := (hl.ip a).mono hle
  source k := (hl.source k).mono hle
  cooldown a t ht := hl.cooldown a t (hle.trans ht)

/-- What a request takes from a bucket and what it is told. -/
theorem Tracks.pay {maxRate : UInt32} {b : TokenBucket} {admitted : List Instant}
    (hb : Tracks maxRate b now admitted) (config : RateLimitConfig) (reason : RateLimitReason) :
    (if (b.tryConsume now).2 then
        .ok (.allowed (b.tryConsume now).1.remaining config.windowDuration)
      else ((b.tryConsume now).1.timeUntilAvailable).map (.limited reason)) =
        History.payVerdict config maxRate reason admitted now ∧
      Tracks maxRate (b.tryConsume now).1 now
        (if 1 ≤ tokensAt maxRate admitted now then now :: admitted else admitted) := by
  have htokens := hb.tokens now le_rfl
  by_cases hone : 1 ≤ tokensAt maxRate admitted now
  · have hone' : 1 ≤ (b.refill now).tokens := htokens ▸ hone
    rw [TokenBucket.tryConsume_of_one_le hone']
    refine ⟨?_, ?_⟩
    · simp [History.payVerdict, hone, TokenBucket.remaining, TokenBucket.paid, htokens]
    · simpa [hone] using hb.consume hone'
  · have hlt : (b.refill now).tokens < 1 := htokens ▸ not_le.mp hone
    rw [TokenBucket.tryConsume_of_lt_one hlt]
    refine ⟨?_, ?_⟩
    · simp [History.payVerdict, hone, TokenBucket.timeUntilAvailable, htokens,
        hb.shaped.refillRate]
    · simpa [hone] using hb.refill

theorem entryTracks_set {K : Type} [DecidableEq K] {maxRate : UInt32}
    {m : KeyedMap K TokenBucket} {old new : K → List Instant}
    (hm : ∀ k, EntryTracks maxRate (m.get k) now (old k)) {k : K} {b : TokenBucket}
    (hb : Tracks maxRate b now (new k)) (hother : ∀ k' ≠ k, new k' = old k') (k' : K) :
    EntryTracks maxRate ((m.set k b).get k') now (new k') := by
  by_cases hk : k' = k
  · subst hk
    rw [KeyedMap.get_set_self]
    exact hb
  · rw [KeyedMap.get_set_ne m b hk, hother k' hk]
    exact hm k'

theorem Agrees.burstAt_iff (hl : Agrees config l now h) (a : IpAddr) :
    l.burstAt a now ↔
      config.burstThreshold < (h.admitted (Stage.isIp a)).countP (isRecent now) := by
  have hb := (hl.ip a).tracks_getD
  rw [← hl.sameConfig] at hb
  rw [RateLimiter.burstAt, TokenBucket.burstThreshold, RateLimiter.ipBucket, hb.shaped.maxTokens,
    hb.recent now le_rfl, hl.sameConfig]
  rfl

/-- A burst is recorded with its cooldown, and nothing is paid. -/
theorem Agrees.bucketSection_burst (hl : Agrees config l now h) {a : IpAddr}
    (hburst : l.burstAt a now) :
    (l.bucketSection a now).2 = h.bucketVerdict config a now ∧
      Agrees config (l.bucketSection a now).1 now
        (h ++ [⟨.bucket a, now, (l.bucketSection a now).2⟩]) := by
  have hcfg := hl.sameConfig
  have hover := (hl.burstAt_iff a).mp hburst
  rw [RateLimiter.bucketSection_burst hburst]
  refine ⟨by simp [History.bucketVerdict, hover, hcfg], ?_⟩
  have hadm : ∀ p : Stage → Bool, History.admitted (h ++ [⟨.bucket a, now,
      .ok (.limited .burstCooldown l.config.cooldownDuration)⟩]) p = h.admitted p := by
    intro p
    simp [History.admitted_append, Decision.allowed]
  constructor
  · exact hcfg
  · intro a'
    refine entryTracks_set hl.ip ?_ (fun _ _ => hadm _) a'
    rw [hadm, RateLimiter.prunedBucket, RateLimiter.ipBucket, hcfg]
    exact (hl.ip a).tracks_getD.prune
  · intro k
    rw [hadm]
    exact hl.source k
  · intro a' t ht
    by_cases ha : a' = a
    · subst ha
      simp [RateLimiter.cooldownSection, History.cooldownVerdict, History.lastBurst_append,
        Decision.detectsBurst, Decision.burstCooldown, hcfg]
    · have hcool := hl.cooldown a' t ht
      have hlast : History.lastBurst (h ++ [⟨.bucket a, now,
          .ok (.limited .burstCooldown l.config.cooldownDuration)⟩]) a' = h.lastBurst a' := by
        simp [History.lastBurst_append, Decision.detectsBurst, Ne.symm ha]
      rw [History.cooldownVerdict, hlast]
      rw [RateLimiter.cooldownSection] at hcool ⊢
      dsimp only
      rw [KeyedMap.get_set_ne _ _ ha]
      exact hcool

/-- Without a burst the bucket pays, or refuses to, and no cooldown changes. -/
theorem Agrees.bucketSection_pay (hl : Agrees config l now h) {a : IpAddr}
    (hquiet : ¬ l.burstAt a now) :
    (l.bucketSection a now).2 = h.bucketVerdict config a now ∧
      Agrees config (l.bucketSection a now).1 now
        (h ++ [⟨.bucket a, now, (l.bucketSection a now).2⟩]) := by
  have hunder := (not_congr (hl.burstAt_iff a)).mp hquiet
  obtain ⟨hverdict, htracks⟩ := (hl.ip a).tracks_getD.prune.pay config .ipRateExceeded
  rw [RateLimiter.bucketSection_pay hquiet, RateLimiter.prunedBucket, RateLimiter.ipBucket,
    hl.sameConfig, hverdict]
  refine ⟨by simp [History.bucketVerdict, hunder], ?_⟩
  have hnoBurst : (Decision.mk (.bucket a) now (History.payVerdict config config.maxRateRpm
      .ipRateExceeded (h.admitted (Stage.isIp a)) now)).burstCooldown = false :=
    History.payVerdict_not_burst (by decide)
  constructor
  · rfl
  · apply entryTracks_set hl.ip
    · rw [History.admitted_pay h (by simp [Stage.isIp])]
      exact htracks
    · intro a' ha
      exact History.admitted_other h _ (by simpa [Stage.isIp] using Ne.symm ha)
  · intro k
    rw [History.admitted_other h _ rfl]
    exact hl.source k
  · intro a' t ht
    rw [History.cooldownVerdict, History.lastBurst_other h
      (by simp [Decision.detectsBurst, hnoBurst])]
    exact hl.cooldown a' t ht

/-- The bucket section returns the verdict of the history and records it. -/
theorem Agrees.bucketSection (hl : Agrees config l now h) (a : IpAddr) :
    (l.bucketSection a now).2 = h.bucketVerdict config a now ∧
      Agrees config (l.bucketSection a now).1 now
        (h ++ [⟨.bucket a, now, (l.bucketSection a now).2⟩]) := by
  by_cases hburst : l.burstAt a now
  · exact hl.bucketSection_burst hburst
  · exact hl.bucketSection_pay hburst

theorem Agrees.sourceSection (hl : Agrees config l now h) (k : String) :
    l.sourceDecision k now = h.sourceVerdict config k now ∧
      Agrees config (l.sourceSection k now).1 now (h ++ [l.sourceDecision k now]) := by
  have hcfg := hl.sameConfig
  obtain ⟨hverdict, htracks⟩ := (hl.source k).tracks_getD.pay config .sourceRateExceeded
  have hdecision : l.sourceDecision k now = h.sourceVerdict config k now := by
    rw [RateLimiter.sourceDecision, RateLimiter.sourceSection_eq, RateLimiter.sourceBucket, hcfg,
      hverdict]
    rfl
  refine ⟨hdecision, ?_⟩
  rw [hdecision, RateLimiter.sourceSection_eq, RateLimiter.sourceBucket, hcfg]
  constructor
  · rfl
  · intro a
    rw [History.admitted_other h _ rfl]
    exact hl.ip a
  · apply entryTracks_set hl.source
    · rw [History.sourceVerdict, History.admitted_pay h (by simp [Stage.isSource])]
      exact htracks
    · intro k' hk
      have hne : ¬ k = k' := Ne.symm hk
      exact History.admitted_other h _ (by simpa [Stage.isSource, History.sourceVerdict] using hne)
  · intro a t ht
    rw [History.cooldownVerdict, History.lastBurst_other h
      (by simp [Decision.detectsBurst, History.sourceVerdict])]
    exact hl.cooldown a t ht

theorem Agrees.refused (hl : Agrees config l now h) {d : Decision} (hd : d.allowed = false)
    (hburst : ∀ a, d.detectsBurst a = false) : Agrees config l now (h ++ [d]) where
  sameConfig := hl.sameConfig
  ip a := by
    rw [History.admitted_append, hd, Bool.and_false]
    exact hl.ip a
  source k := by
    rw [History.admitted_append, hd, Bool.and_false]
    exact hl.source k
  cooldown a t ht := by
    rw [History.cooldownVerdict, History.lastBurst_other h (hburst a)]
    exact hl.cooldown a t ht

theorem Agrees.checkIp (hl : Agrees config l now h) (a : IpAddr) :
    l.ipDecision a now = h.ipVerdict config a now ∧
      Agrees config (l.checkIp a now).1 now (h ++ [l.ipDecision a now]) := by
  have hcool := hl.cooldown a now le_rfl
  rw [RateLimiter.ipDecision, RateLimiter.checkIp, History.ipVerdict]
  rw [← hcool]
  cases hsection : l.cooldownSection a now with
  | none =>
      obtain ⟨hverdict, hagrees⟩ := hl.bucketSection a
      exact ⟨by rw [hverdict], hagrees⟩
  | some refusal =>
      obtain ⟨_, _, _, rfl⟩ := RateLimiter.cooldownSection_eq_some hsection
      exact ⟨rfl, hl.refused rfl fun _ => rfl⟩

/-- A bucket that is dropped as stale was idle. -/
theorem entryTracks_retain {K : Type} [DecidableEq K] {maxRate : UInt32}
    {m : KeyedMap K TokenBucket} {adm : K → List Instant}
    (hm : ∀ k, EntryTracks maxRate (m.get k) now (adm k)) (k : K) :
    EntryTracks maxRate ((m.retain fun _ b => RateLimiter.isFresh now b).get k) now (adm k) := by
  have hk := hm k
  rw [KeyedMap.get_retain]
  cases hget : m.get k with
  | none => simpa [hget] using hk
  | some b =>
      rw [hget] at hk
      by_cases hfresh : RateLimiter.isFresh now b = true
      · simpa [Option.filter, hfresh] using hk
      · have hstale : RateLimiter.staleThreshold ≤ durationSince now b.lastRefill := by
          simpa [RateLimiter.isFresh] using hfresh
        simpa [Option.filter, hfresh, EntryTracks] using Tracks.idle hk hstale

/-- Cleaning up leaves every later verdict as it was. -/
theorem Agrees.cleanup (hl : Agrees config l now h) : Agrees config (l.cleanup now) now h where
  sameConfig := hl.sameConfig
  ip := entryTracks_retain hl.ip
  source := entryTracks_retain hl.source
  cooldown a t ht := by
    rw [← hl.cooldown a t ht]
    unfold RateLimiter.cooldownSection RateLimiter.cleanup RateLimiter.cleanCooldowns
    dsimp only [RateLimiter.cleanIpBuckets, RateLimiter.cleanSourceBuckets]
    rw [KeyedMap.get_retain]
    cases hget : l.cooldowns.get a with
    | none => rfl
    | some state =>
        by_cases hrunning : now < state.cooldownUntil
        · simp [Option.filter, hrunning]
        · have hover : ¬ t < state.cooldownUntil := fun hlt => hrunning (ht.trans_lt hlt)
          simp [Option.filter, hrunning, hover]

theorem Agrees.checkDecisions (hl : Agrees config l now h) (env : Platform) (ip : IpAddr)
    (sourceUrl : Option String) :
    l.checkDecisions env ip sourceUrl now =
        History.eventDecisions env config h ⟨now, .check ip sourceUrl⟩ ∧
      Agrees config (l.check env ip sourceUrl now).1 now
        (h ++ l.checkDecisions env ip sourceUrl now) := by
  obtain ⟨hfirst, hnext⟩ := hl.checkIp ip
  unfold RateLimiter.checkDecisions History.eventDecisions
  dsimp only
  rw [← hfirst]
  cases hallowed : (l.ipDecision ip now).allowed with
  | false =>
      rw [RateLimiter.check_refused env sourceUrl hallowed]
      exact ⟨rfl, hnext⟩
  | true =>
      cases sourceUrl with
      | none =>
          rw [RateLimiter.check_none]
          exact ⟨rfl, hnext⟩
      | some source =>
          obtain ⟨hsecond, hlast⟩ := hnext.sourceSection (env.normalizeSourceUrl source)
          rw [RateLimiter.check_some env source hallowed]
          refine ⟨congrArg (fun d => [l.ipDecision ip now, d]) hsecond, ?_⟩
          simpa [List.append_assoc] using hlast

theorem Agrees.step (env : Platform) {e : Event} (hl : Agrees config l e.now h) :
    (l.step env e).2 = (h.step env config e).2 ∧
      Agrees config (l.step env e).1 e.now (h.step env config e).1 := by
  have hdecisions : (l.step env e).2.decisions = h.eventDecisions env config e ∧
      Agrees config (l.step env e).1 e.now (h ++ (l.step env e).2.decisions) := by
    obtain ⟨now, call⟩ := e
    cases call with
    | checkIp ip =>
        obtain ⟨hd, hnext⟩ := hl.checkIp ip
        exact ⟨congrArg (fun d => [d]) hd, hnext⟩
    | checkSource sourceUrl =>
        obtain ⟨hd, hnext⟩ := hl.sourceSection (env.normalizeSourceUrl sourceUrl)
        exact ⟨congrArg (fun d => [d]) hd, hnext⟩
    | check ip sourceUrl => exact hl.checkDecisions env ip sourceUrl
    | cleanup =>
        refine ⟨rfl, ?_⟩
        simpa [RateLimiter.step] using hl.cleanup
  obtain ⟨hds, hnext⟩ := hdecisions
  have hanswer := l.step_answer env e
  rw [hds] at hanswer hnext
  refine ⟨?_, hnext⟩
  rw [History.step, ← hanswer, ← hds]

/-- Every run of the limiter replies as its decision history does. -/
theorem replies_eq (env : Platform) (config : RateLimitConfig) {events : List Event}
    (hevents : Nondecreasing events) :
    RateLimiter.replies env config events =
      Machine.trace (History.step env config) [] events := by
  rw [RateLimiter.replies]
  refine hevents.legal.trace_eq (R := fun clock l h => Agrees config l clock h) ?_
    (agrees_new config 0)
  intro clock l h e hclock hagrees
  exact (hagrees.mono hclock).step env

theorem decisions_eq (env : Platform) (config : RateLimitConfig) {events : List Event}
    (hevents : Nondecreasing events) :
    RateLimiter.decisions env config events =
      Machine.final (History.step env config) [] events := by
  rw [RateLimiter.decisions, replies_eq env config hevents, History.final_eq, List.nil_append]

theorem decisions_sound (env : Platform) (config : RateLimitConfig) {events : List Event}
    (hevents : Nondecreasing events) :
    History.Sound config (RateLimiter.decisions env config events) := by
  rw [decisions_eq env config hevents]
  exact History.sound_final env config hevents

end CivicConnect.Webmention
