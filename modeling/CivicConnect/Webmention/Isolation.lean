import CivicConnect.Webmention.Refinement

/-!
# What a verdict depends on

The verdicts for one address are a replay of the times of its own requests,
and those for one source key of the times at which requests reached it.
Other addresses, other keys and cleanups leave no trace in them.
-/

namespace CivicConnect.Webmention

open Net

namespace History

variable {config : RateLimitConfig}

/-- The decisions of one address or one key alone, at the given times. -/
def replay (verdict : History → Instant → Decision) (times : List Instant) : History :=
  times.foldl (fun h t => h ++ [verdict h t]) []

theorem replay_append (verdict : History → Instant → Decision) (times : List Instant)
    (t : Instant) : replay verdict (times ++ [t]) =
      replay verdict times ++ [verdict (replay verdict times) t] := by
  simp [replay, List.foldl_append]

def restrict (h : History) (p : Stage → Bool) : History := h.filter fun d => p d.stage

theorem restrict_append (h : History) (d : Decision) (p : Stage → Bool) :
    restrict (h ++ [d]) p = if p d.stage then h.restrict p ++ [d] else h.restrict p := by
  by_cases hp : p d.stage
  · simp [restrict, List.filter_append, hp]
  · simp [restrict, List.filter_append, hp]

theorem admitted_restrict (h : History) (p : Stage → Bool) :
    (h.restrict p).admitted p = h.admitted p := by
  simp [admitted, restrict, List.filter_filter, Bool.and_comm]

theorem lastBurst_restrict (h : History) (a : IpAddr) :
    (h.restrict (Stage.isIp a)).lastBurst a = h.lastBurst a := by
  have hstage : ∀ d : Decision, d.detectsBurst a = true → d.stage.isIp a = true := by
    intro d hd
    obtain ⟨hbucket, _⟩ := Bool.and_eq_true_iff.mp hd
    rw [of_decide_eq_true hbucket]
    exact decide_eq_true rfl
  have hfilter : ∀ d ∈ h, (d.detectsBurst a && d.stage.isIp a) = d.detectsBurst a := by
    intro d _
    cases hd : d.detectsBurst a with
    | false => rfl
    | true => exact hstage d hd
  rw [lastBurst, restrict, List.filter_filter, List.filter_congr hfilter]
  rfl

theorem ipVerdict_restrict (h : History) (a : IpAddr) (t : Instant) :
    ipVerdict config (h.restrict (Stage.isIp a)) a t = ipVerdict config h a t := by
  simp only [ipVerdict, cooldownVerdict, bucketVerdict, admitted_restrict, lastBurst_restrict]

theorem sourceVerdict_restrict (h : History) (k : String) (t : Instant) :
    sourceVerdict config (h.restrict (Stage.isSource k)) k t = sourceVerdict config h k t := by
  simp only [sourceVerdict, admitted_restrict]

/-- Replaying goes on when each new decision is the verdict on the old ones of
its own stage. -/
theorem replay_snoc {verdict : History → Instant → Decision} {h : History} {d : Decision}
    {p : Stage → Bool} (hreplay : h.restrict p = replay verdict ((h.restrict p).map Decision.now))
    (hd : p d.stage = true → d = verdict (h.restrict p) d.now) :
    restrict (h ++ [d]) p = replay verdict ((restrict (h ++ [d]) p).map Decision.now) := by
  rw [restrict_append]
  by_cases hp : p d.stage
  · rw [if_pos hp, List.map_append, List.map_singleton, replay_append, ← hreplay, ← hd hp]
  · rw [if_neg hp]
    exact hreplay

theorem Sound.ip_replay {h : History} (hs : Sound config h) (a : IpAddr) :
    h.restrict (Stage.isIp a) = replay (fun g t => ipVerdict config g a t)
      ((h.restrict (Stage.isIp a)).map Decision.now) := by
  induction hs with
  | nil => rfl
  | ip b t _ _ ih =>
      refine replay_snoc ih fun hb => ?_
      obtain rfl : b = a := by simpa using hb
      rw [ipVerdict_restrict, ipVerdict_now]
  | source k t _ _ ih => exact replay_snoc ih fun hk => by simp at hk

theorem Sound.source_replay {h : History} (hs : Sound config h) (k : String) :
    h.restrict (Stage.isSource k) = replay (fun g t => sourceVerdict config g k t)
      ((h.restrict (Stage.isSource k)).map Decision.now) := by
  induction hs with
  | nil => rfl
  | ip a t _ _ ih => exact replay_snoc ih fun ha => by simp at ha
  | source k' t _ _ ih =>
      refine replay_snoc ih fun hk => ?_
      obtain rfl : k' = k := by simpa using hk
      rw [sourceVerdict_restrict, sourceVerdict_now]

theorem eventDecisions_times (env : Platform) (h : History) (e : Event) (a : IpAddr) :
    (restrict (eventDecisions env config h e) (Stage.isIp a)).map Decision.now =
      if e.call.carries a then [e.now] else [] := by
  obtain ⟨now, call⟩ := e
  cases call with
  | checkIp ip => by_cases ha : ip = a <;> simp [eventDecisions, restrict, Call.carries, ha]
  | checkSource sourceUrl => rfl
  | check ip sourceUrl =>
      rw [eventDecisions]
      dsimp only
      split <;> by_cases ha : ip = a <;> simp [restrict, Call.carries, ha]
  | cleanup => rfl

theorem final_times (env : Platform) (config : RateLimitConfig) (a : IpAddr) (h : History)
    (events : List Event) :
    (restrict (Machine.final (step env config) h events) (Stage.isIp a)).map Decision.now =
      (h.restrict (Stage.isIp a)).map Decision.now ++
        (events.filter fun e => e.call.carries a).map Event.now := by
  induction events generalizing h with
  | nil => simp
  | cons e events ih =>
      have htimes : (restrict (eventDecisions env config h e) (Stage.isIp a)).map Decision.now =
          if e.call.carries a then [e.now] else [] := eventDecisions_times env h e a
      rw [Machine.final_cons, ih]
      simp only [step, restrict, List.filter_append, List.map_append, List.append_assoc] at htimes ⊢
      rw [htimes]
      by_cases ha : e.call.carries a <;> simp [ha]

theorem step_cleanup (env : Platform) (config : RateLimitConfig) (h : History) {e : Event}
    (he : e.call.isCleanup = true) :
    (step env config h e).1 = h ∧ (step env config h e).2.answer = none := by
  obtain ⟨now, call⟩ := e
  cases call with
  | cleanup => exact ⟨List.append_nil h, rfl⟩
  | checkIp | checkSource | check => cases he

end History

theorem Nondecreasing.filter {events : List Event} (h : Nondecreasing events)
    (p : Event → Bool) : Nondecreasing (events.filter p) :=
  h.sublist (List.filter_sublist.map Event.now)

/-- Cleanups, wherever they are inserted, change no answer. -/
theorem answers_insert_cleanups (env : Platform) (config : RateLimitConfig)
    {events events' : List Event} (hevents : Nondecreasing events')
    (hinserted : events'.filter (fun e => !e.call.isCleanup) = events) :
    RateLimiter.answers env config events' = RateLimiter.answers env config events := by
  subst hinserted
  rw [RateLimiter.answers, RateLimiter.answers, replies_eq env config hevents,
    replies_eq env config (hevents.filter _)]
  refine (Machine.filterMap_trace_filter _ _ (fun h e he => ?_) [] events').symm
  exact History.step_cleanup env config h (by simpa using he)

theorem answers_insert_cleanups_midway :
    let ip := IpAddr.v4 192 0 2 1
    RateLimiter.answers default default
        [⟨0, .check ip (some "a")⟩, ⟨fromSecs 400, .cleanup⟩, ⟨fromSecs 400, .cleanup⟩,
          ⟨fromSecs 500, .checkIp ip⟩] =
      RateLimiter.answers default default
        [⟨0, .check ip (some "a")⟩, ⟨fromSecs 500, .checkIp ip⟩] :=
  answers_insert_cleanups default default (by decide) (by decide)

/-- Clients do not interfere: the decisions for an address depend on the calls
that carry it, and those for a source key on the times at which requests
reach it. -/
theorem decisions_isolated (env : Platform) (config : RateLimitConfig)
    {events events' : List Event} (hevents : Nondecreasing events)
    (hevents' : Nondecreasing events') :
    (∀ a, events.filter (fun e => e.call.carries a) =
          events'.filter (fun e => e.call.carries a) →
        History.restrict (RateLimiter.decisions env config events) (Stage.isIp a) =
          History.restrict (RateLimiter.decisions env config events') (Stage.isIp a)) ∧
      ∀ k, (History.restrict (RateLimiter.decisions env config events)
            (Stage.isSource k)).map Decision.now =
          (History.restrict (RateLimiter.decisions env config events')
            (Stage.isSource k)).map Decision.now →
        History.restrict (RateLimiter.decisions env config events) (Stage.isSource k) =
          History.restrict (RateLimiter.decisions env config events') (Stage.isSource k) := by
  have hs := decisions_sound env config hevents
  have hs' := decisions_sound env config hevents'
  constructor
  · intro a hsame
    have htimes := History.final_times env config a [] events
    have htimes' := History.final_times env config a [] events'
    rw [← decisions_eq env config hevents] at htimes
    rw [← decisions_eq env config hevents', ← hsame, ← htimes] at htimes'
    rw [hs.ip_replay a, hs'.ip_replay a, htimes']
  · intro k hsame
    rw [hs.source_replay k, hs'.source_replay k, hsame]

theorem decisions_isolated_pair :
    let a := IpAddr.v4 192 0 2 1
    let b := IpAddr.v4 192 0 2 2
    let alone : List Event := [⟨0, .check a (some "k")⟩, ⟨fromSecs 400, .checkIp a⟩]
    let mixed : List Event := [⟨0, .check a (some "k")⟩, ⟨1, .check b (some "j")⟩,
      ⟨fromSecs 350, .cleanup⟩, ⟨fromSecs 400, .checkIp a⟩]
    History.restrict (RateLimiter.decisions default default alone) (Stage.isIp a) =
        History.restrict (RateLimiter.decisions default default mixed) (Stage.isIp a) ∧
      History.restrict (RateLimiter.decisions default default alone) (Stage.isSource "k") =
        History.restrict (RateLimiter.decisions default default mixed) (Stage.isSource "k") := by
  intro a b alone mixed
  have halone : Nondecreasing alone := by decide
  have hmixed : Nondecreasing mixed := by decide
  obtain ⟨hip, hsource⟩ := decisions_isolated default default halone hmixed
  exact ⟨hip a (by decide), hsource "k" (by decide +kernel)⟩

end CivicConnect.Webmention
