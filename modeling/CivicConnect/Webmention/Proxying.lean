import CivicConnect.Webmention.Amplification
import CivicConnect.Webmention.Isolation
import CivicConnect.Webmention.RetryAfter

/-!
# The proxy handler

`proxy_handler` sits in the path of the requests and knows only their peer
address and content type; `check` is asked about requests by others. Where both
serve one state, they share its limiter: the requests of one address are let
through together at most as often as the rate allows, and what a proxied request
is answered depends on the requests of its own address alone.
-/

namespace CivicConnect.Webmention

open Net

/-- A request as the proxy sees it: the address of the peer and the first
`Content-Type` header. -/
structure ProxiedRequest where
  addr : IpAddr
  contentTypeHeader : Option (List UInt8)
  deriving DecidableEq

def ProxiedRequest.contentType (env : Platform) (req : ProxiedRequest) : Option String :=
  req.contentTypeHeader.bind env.headerToStr

structure ErrorResponse where
  error : String
  code : String
  retryAfterSecs : Option ℕ
  deriving DecidableEq

inductive ProxyStatus where
  | ok
  | unsupportedMediaType
  | tooManyRequests
  deriving DecidableEq

inductive ProxyBody where
  | text (body : String)
  | json (body : ErrorResponse)
  deriving DecidableEq

structure ProxyResponse where
  status : ProxyStatus
  headers : List (String × String)
  body : ProxyBody
  deriving DecidableEq

def invalidContentType (error : String) : ProxyResponse :=
  ⟨.unsupportedMediaType, [], .json ⟨error, "INVALID_CONTENT_TYPE", none⟩⟩

def proxyRespond : RateLimitResult → ProxyResponse
  | .allowed remaining _ =>
      ⟨.ok, [("X-RateLimit-Remaining", toString remaining), ("X-Webmention-Validated", "true")],
        .text "Request validated successfully"⟩
  | .limited reason retryAfter =>
      ⟨.tooManyRequests, [("Retry-After", toString (asSecs retryAfter))],
        .json ⟨reason.display, "RATE_LIMITED", some (asSecs retryAfter)⟩⟩

abbrev ProxyOutcome := Except Panic ProxyResponse

inductive SharedCall where
  | check (req : CheckRequest)
  | proxied (req : ProxiedRequest)
  | cleanup
  deriving DecidableEq

structure SharedEvent where
  now : Instant
  call : SharedCall
  deriving DecidableEq

inductive SharedReply where
  | checked (req : CheckRequest) (response : Response)
  | proxied (req : ProxiedRequest) (response : ProxyOutcome)
  | cleaned
  deriving DecidableEq

namespace AppState

def proxyHandler (env : Platform) (state : AppState) (req : ProxiedRequest) (now : Instant) :
    AppState × ProxyOutcome :=
  match state.validator.validateContentType env (req.contentType env) with
  | .error err => (state, .ok (invalidContentType (err.display env)))
  | .ok () =>
      let (limiter, outcome) := state.limiter.checkIp req.addr now
      ({ state with limiter := limiter }, outcome.map proxyRespond)

/-- Both handlers and the cleanup task on one state. -/
def sharedStep (env : Platform) (state : AppState) (e : SharedEvent) :
    AppState × (Instant × SharedReply) :=
  match e.call with
  | .check req =>
      let (state, response) := state.check env req e.now
      (state, e.now, .checked req response)
  | .proxied req =>
      let (state, response) := state.proxyHandler env req e.now
      (state, e.now, .proxied req response)
  | .cleanup => ({ state with limiter := state.limiter.cleanup e.now }, e.now, .cleaned)

end AppState

namespace SharedEvent

variable (env : Platform) (v : WebmentionValidator)

/-- The call of the limiter that the event gets through to. -/
def limiterEvent (e : SharedEvent) : Option Event :=
  match e.call with
  | .check req => (req.accepted env v).map fun ip => ⟨e.now, .check ip req.source⟩
  | .proxied req =>
      match v.validateContentType env (req.contentType env) with
      | .ok () => some ⟨e.now, .checkIp req.addr⟩
      | .error _ => none
  | .cleanup => some ⟨e.now, .cleanup⟩

/-- The event is a request of the address. -/
def concerns (a : IpAddr) (e : SharedEvent) : Bool :=
  match e.call with
  | .check req => req.accepted env v = some a
  | .proxied req => req.addr = a
  | .cleanup => false

/-- What a proxied request is answered without the limiter. -/
def turnedAway (e : SharedEvent) : List ProxyOutcome :=
  match e.call with
  | .proxied req =>
      match v.validateContentType env (req.contentType env) with
      | .ok () => []
      | .error err => [.ok (invalidContentType (err.display env))]
  | _ => []

/-- What a proxied request is answered on a decision for its address. -/
def answered (e : SharedEvent) (d : Decision) : List ProxyOutcome :=
  match e.call with
  | .proxied _ => [d.outcome.map proxyRespond]
  | _ => []

/-- The proxy and the check endpoint for an address that has them to itself. -/
def aloneStep (config : RateLimitConfig) (a : IpAddr) (h : History) (e : SharedEvent) :
    History × List ProxyOutcome :=
  match e.limiterEvent env v with
  | some _ => (h ++ [h.ipVerdict config a e.now], e.answered (h.ipVerdict config a e.now))
  | none => (h, e.turnedAway env v)

end SharedEvent

def SharedReply.proxiedTo (a : IpAddr) : SharedReply → List ProxyOutcome
  | proxied req response => if req.addr = a then [response] else []
  | _ => []

/-- The request of the address is let through. -/
def SharedReply.passes (a : IpAddr) : SharedReply → Bool
  | checked req (.ok (_, response)) => response.allowed && parseIpAddr req.ip = some a
  | proxied req (.ok response) => response.status = .ok && req.addr = a
  | _ => false

namespace AppState

def Ordered (events : List SharedEvent) : Prop :=
  (events.map SharedEvent.now).Pairwise (· ≤ ·)

instance (events : List SharedEvent) : Decidable (Ordered events) :=
  inferInstanceAs (Decidable (List.Pairwise _ _))

def proxiedReplies (env : Platform) (state : AppState) (a : IpAddr) (events : List SharedEvent) :
    List ProxyOutcome :=
  (Machine.trace (sharedStep env) state events).flatMap fun r => r.2.proxiedTo a

/-- The number of requests of the address that are let through from `s` to `t`. -/
def passed (env : Platform) (state : AppState) (a : IpAddr) (s t : Instant)
    (events : List SharedEvent) : ℕ :=
  (Machine.trace (sharedStep env) state events).countP fun r =>
    r.2.passes a && decide (s ≤ r.1 ∧ r.1 ≤ t)

end AppState

namespace History

variable {env : Platform} {config : RateLimitConfig}

/-- Of the decisions of one call those for an address are the verdict at its
address stage. -/
theorem restrict_eventDecisions (h : History) (e : Event) (a : IpAddr) :
    restrict (h.eventDecisions env config e) (Stage.isIp a) =
      if e.call.carries a then [h.ipVerdict config a e.now] else [] := by
  obtain ⟨now, call⟩ := e
  have hsingle : ∀ ip, restrict [h.ipVerdict config ip now] (Stage.isIp a) =
      if ip = a then [h.ipVerdict config a now] else [] := by
    intro ip
    by_cases ha : ip = a
    · simp [restrict, ha]
    · simp [restrict, ha]
  cases call with
  | cleanup => rfl
  | checkSource sourceUrl => rfl
  | checkIp ip => simpa [eventDecisions, Call.carries] using hsingle ip
  | check ip sourceUrl =>
      have hfirst := hsingle ip
      simp only [eventDecisions, Call.carries, decide_eq_true_eq]
      split
      · simpa [restrict, List.filter_cons] using hfirst
      · exact hfirst

theorem restrict_step (h : History) (e : Event) (a : IpAddr) :
    restrict (h.step env config e).1 (Stage.isIp a) = h.restrict (Stage.isIp a) ++
      if e.call.carries a then [h.ipVerdict config a e.now] else [] := by
  rw [← restrict_eventDecisions]
  exact List.filter_append _ _

end History

namespace RateLimiter

@[simp] theorem ipDecision_now (l : RateLimiter) (ip : IpAddr) (now : Instant) :
    (l.ipDecision ip now).now = now := by
  rw [ipDecision]
  cases l.cooldownSection ip now <;> rfl

@[simp] theorem ipDecision_isIp (l : RateLimiter) (ip a : IpAddr) (now : Instant) :
    (l.ipDecision ip now).stage.isIp a = decide (ip = a) := by
  rw [ipDecision]
  cases l.cooldownSection ip now <;> rfl

theorem ipDecision_mem_decisions (env : Platform) (l : RateLimiter) {e : Event} {a : IpAddr}
    (h : e.call.carries a = true) : l.ipDecision a e.now ∈ (l.step env e).2.decisions := by
  obtain ⟨now, call⟩ := e
  cases call with
  | cleanup => cases h
  | checkSource sourceUrl => cases h
  | checkIp ip =>
      obtain rfl : ip = a := of_decide_eq_true h
      exact List.mem_singleton_self _
  | check ip sourceUrl =>
      obtain rfl : ip = a := of_decide_eq_true h
      simp only [step, checkDecisions]
      split
      · exact List.mem_cons_self
      · exact List.mem_singleton_self _

/-- A check that is allowed was allowed at its address. -/
theorem ipDecision_of_check {env : Platform} {l : RateLimiter} {ip : IpAddr}
    {sourceUrl : Option String} {now : Instant} {remaining : ℕ} {resetIn : Duration}
    (h : (l.check env ip sourceUrl now).2 = .ok (.allowed remaining resetIn)) :
    (l.ipDecision ip now).allowed = true := by
  by_contra hrefused
  rw [Bool.not_eq_true] at hrefused
  rw [check_refused env sourceUrl hrefused, checkIp_outcome] at h
  rw [Decision.allowed, h] at hrefused
  cases hrefused

end RateLimiter

namespace SharedReply

variable {a : IpAddr} {outcome : Outcome}

theorem passes_checked {req : CheckRequest}
    (h : (checked req (outcome.map respond)).passes a = true) :
    parseIpAddr req.ip = some a ∧
      ∃ remaining resetIn, outcome = .ok (.allowed remaining resetIn) := by
  cases outcome with
  | error p => cases h
  | ok result =>
      cases result with
      | limited reason retryAfter => cases h
      | allowed remaining resetIn => exact ⟨of_decide_eq_true h, remaining, resetIn, rfl⟩

theorem passes_proxied {req : ProxiedRequest}
    (h : (proxied req (outcome.map proxyRespond)).passes a = true) :
    req.addr = a ∧ ∃ remaining resetIn, outcome = .ok (.allowed remaining resetIn) := by
  cases outcome with
  | error p => cases h
  | ok result =>
      cases result with
      | limited reason retryAfter => cases h
      | allowed remaining resetIn => exact ⟨of_decide_eq_true h, remaining, resetIn, rfl⟩

end SharedReply

namespace SharedEvent

variable {env : Platform} {v : WebmentionValidator} {e : SharedEvent} {e' : Event}

/-- The events that get through to the limiter, with the calls they make. -/
inductive Reaches (env : Platform) (v : WebmentionValidator) : SharedEvent → Event → Prop
  | cleanup (now : Instant) : Reaches env v ⟨now, .cleanup⟩ ⟨now, .cleanup⟩
  | check (now : Instant) {req : CheckRequest} {ip : IpAddr}
      (haccepted : req.accepted env v = some ip) :
      Reaches env v ⟨now, .check req⟩ ⟨now, .check ip req.source⟩
  | proxied (now : Instant) {req : ProxiedRequest}
      (hvalid : v.validateContentType env (req.contentType env) = .ok ()) :
      Reaches env v ⟨now, .proxied req⟩ ⟨now, .checkIp req.addr⟩

theorem reaches_of_limiterEvent (h : e.limiterEvent env v = some e') : Reaches env v e e' := by
  obtain ⟨now, call⟩ := e
  cases call with
  | cleanup =>
      obtain rfl := Option.some.inj h
      exact .cleanup now
  | check req =>
      obtain ⟨ip, haccepted, rfl⟩ := Option.map_eq_some_iff.mp h
      exact .check now haccepted
  | proxied req =>
      cases hvalid : v.validateContentType env (req.contentType env) with
      | error err => simp [limiterEvent, hvalid] at h
      | ok =>
          obtain rfl : _ = e' := by simpa [limiterEvent, hvalid] using h
          exact .proxied now hvalid

theorem limiterEvent_now (h : e.limiterEvent env v = some e') : e'.now = e.now := by
  cases reaches_of_limiterEvent h <;> rfl

theorem concerns_eq (h : e.limiterEvent env v = some e') (a : IpAddr) :
    e.concerns env v a = e'.call.carries a := by
  cases reaches_of_limiterEvent h with
  | cleanup | proxied => rfl
  | check now haccepted => simp [concerns, haccepted, Call.carries]

end SharedEvent

namespace AppState

variable {env : Platform} {state : AppState} {e : SharedEvent} {e' : Event}

/-- An event that does not get through to the limiter. -/
theorem sharedStep_of_none (h : e.limiterEvent env state.validator = none) (a : IpAddr) :
    (state.sharedStep env e).1 = state ∧ (state.sharedStep env e).2.2.passes a = false ∧
      (state.sharedStep env e).2.2.proxiedTo a =
        if e.concerns env state.validator a then e.turnedAway env state.validator else [] := by
  obtain ⟨now, call⟩ := e
  cases call with
  | cleanup => cases h
  | check req =>
      have hrejected : req.accepted env state.validator = none := Option.map_eq_none_iff.mp h
      obtain ⟨hstate, status, response, hresponse, hallowed⟩ := check_rejected now hrejected
      refine ⟨hstate, ?_, ?_⟩
      · simp [sharedStep, hresponse, SharedReply.passes, hallowed]
      · simp [sharedStep, SharedReply.proxiedTo, SharedEvent.concerns, hrejected]
  | proxied req =>
      cases hvalid : state.validator.validateContentType env (req.contentType env) with
      | ok => simp [SharedEvent.limiterEvent, hvalid] at h
      | error err =>
          simp [sharedStep, proxyHandler, SharedReply.passes, SharedReply.proxiedTo,
            SharedEvent.concerns, SharedEvent.turnedAway, hvalid, invalidContentType]

/-- An event that gets through to the limiter. -/
theorem sharedStep_of_some (h : e.limiterEvent env state.validator = some e') (a : IpAddr) :
    (state.sharedStep env e).1 = { state with limiter := (state.limiter.step env e').1 } ∧
      (state.sharedStep env e).2.2.proxiedTo a =
        if e.concerns env state.validator a then
          e.answered (state.limiter.ipDecision a e.now) else [] := by
  cases SharedEvent.reaches_of_limiterEvent h with
  | cleanup => exact ⟨rfl, rfl⟩
  | check now haccepted =>
      refine ⟨?_, ?_⟩
      · simp [sharedStep, check_accepted now haccepted, RateLimiter.step]
      · simp [sharedStep, SharedReply.proxiedTo, SharedEvent.answered]
  | @proxied now req hvalid =>
      refine ⟨?_, ?_⟩
      · simp [sharedStep, proxyHandler, hvalid, RateLimiter.step]
      · by_cases ha : req.addr = a
        · simp [sharedStep, proxyHandler, hvalid, SharedReply.proxiedTo, ha,
            SharedEvent.concerns, SharedEvent.answered, RateLimiter.checkIp_outcome]
        · simp [sharedStep, proxyHandler, hvalid, SharedReply.proxiedTo, ha,
            SharedEvent.concerns]

/-- A request that is let through was allowed at its address. -/
theorem ipDecision_of_passes (h : e.limiterEvent env state.validator = some e') {a : IpAddr}
    (hpasses : (state.sharedStep env e).2.2.passes a = true) :
    e.concerns env state.validator a = true ∧
      (state.limiter.ipDecision a e.now).allowed = true := by
  cases SharedEvent.reaches_of_limiterEvent h with
  | cleanup => cases hpasses
  | @check now req ip haccepted =>
      simp only [sharedStep, check_accepted now haccepted] at hpasses
      obtain ⟨hip, remaining, resetIn, houtcome⟩ := SharedReply.passes_checked hpasses
      obtain rfl : ip = a := Option.some.inj ((parseIpAddr_of_accepted haccepted).symm.trans hip)
      exact ⟨decide_eq_true haccepted, RateLimiter.ipDecision_of_check houtcome⟩
  | proxied now hvalid =>
      simp only [sharedStep, proxyHandler, hvalid] at hpasses
      obtain ⟨rfl, remaining, resetIn, houtcome⟩ := SharedReply.passes_proxied hpasses
      rw [RateLimiter.checkIp_outcome] at houtcome
      exact ⟨decide_eq_true rfl, by simp [Decision.allowed, houtcome]⟩

/-- The history of the address, beside the limiter that all share. -/
def AloneWith (v : WebmentionValidator) (config : RateLimitConfig) (a : IpAddr) (now : Instant)
    (state : AppState) (g : History) : Prop :=
  state.validator = v ∧
    ∃ h, Agrees config state.limiter now h ∧ h.restrict (Stage.isIp a) = g

variable {config : RateLimitConfig} {now : Instant} {g : History} {a : IpAddr}

theorem AloneWith.own (halone : AloneWith state.validator config a now state g)
    (hnow : now ≤ e.now) (hconcerns : e.concerns env state.validator a = true) :
    (state.sharedStep env e).2.2.proxiedTo a =
        (e.aloneStep env state.validator config a g).2 ∧
      AloneWith state.validator config a e.now (state.sharedStep env e).1
        (e.aloneStep env state.validator config a g).1 := by
  obtain ⟨_, h, hagrees, rfl⟩ := halone
  have hhead := hagrees.mono hnow
  cases hevent : e.limiterEvent env state.validator with
  | none =>
      obtain ⟨hstate, _, hreply⟩ := sharedStep_of_none hevent a
      rw [hstate, hreply, if_pos hconcerns, SharedEvent.aloneStep, hevent]
      exact ⟨rfl, rfl, h, hhead, rfl⟩
  | some e' =>
      obtain ⟨hstate, hreply⟩ := sharedStep_of_some hevent a
      have htime := SharedEvent.limiterEvent_now hevent
      have hverdict := (hhead.checkIp a).1
      have hnext := (Agrees.step env (htime ▸ hhead)).2
      have hcarries := (SharedEvent.concerns_eq hevent a).symm.trans hconcerns
      have hrecorded : History.restrict (h.step env config e').1 (Stage.isIp a) =
          h.restrict (Stage.isIp a) ++ [h.ipVerdict config a e.now] := by
        rw [History.restrict_step, if_pos hcarries, htime]
      rw [hstate, hreply, if_pos hconcerns, SharedEvent.aloneStep, hevent, hverdict,
        History.ipVerdict_restrict]
      exact ⟨rfl, rfl, _, htime ▸ hnext, hrecorded⟩

theorem AloneWith.other (halone : AloneWith state.validator config a now state g)
    (hnow : now ≤ e.now) (hconcerns : e.concerns env state.validator a = false) :
    (state.sharedStep env e).2.2.proxiedTo a = [] ∧
      AloneWith state.validator config a e.now (state.sharedStep env e).1 g := by
  obtain ⟨_, h, hagrees, rfl⟩ := halone
  have hhead := hagrees.mono hnow
  cases hevent : e.limiterEvent env state.validator with
  | none =>
      obtain ⟨hstate, _, hreply⟩ := sharedStep_of_none hevent a
      rw [hstate, hreply, hconcerns]
      exact ⟨rfl, rfl, h, hhead, rfl⟩
  | some e' =>
      obtain ⟨hstate, hreply⟩ := sharedStep_of_some hevent a
      have htime := SharedEvent.limiterEvent_now hevent
      have hnext := (Agrees.step env (htime ▸ hhead)).2
      have hcarries := (SharedEvent.concerns_eq hevent a).symm.trans hconcerns
      have hunrecorded : History.restrict (h.step env config e').1 (Stage.isIp a) =
          h.restrict (Stage.isIp a) := by
        rw [History.restrict_step, hcarries, if_neg Bool.false_ne_true, List.append_nil]
      rw [hstate, hreply, hconcerns]
      exact ⟨rfl, rfl, _, htime ▸ hnext, hunrecorded⟩

/-- What an address is answered by the proxy is a run on its own requests. -/
theorem proxiedReplies_eq (env : Platform) (validator : WebmentionValidator)
    (config : RateLimitConfig) (a : IpAddr) {events : List SharedEvent} (hevents : Ordered events) :
    (new validator config).proxiedReplies env a events =
      (Machine.trace (SharedEvent.aloneStep env validator config a) []
        (events.filter (SharedEvent.concerns env validator a))).flatten := by
  have hlegal := Machine.legal_of_pairwise SharedEvent.now (fun _ _ => Nat.zero_le _) hevents
  refine hlegal.flatMap_trace_eq (R := AloneWith validator config a) ?_ ?_
    ⟨rfl, [], agrees_new config 0, rfl⟩
  · rintro c state g e hnow ⟨rfl, h⟩ hconcerns
    exact AloneWith.own ⟨rfl, h⟩ hnow hconcerns
  · rintro c state g e hnow ⟨rfl, h⟩ hconcerns
    exact AloneWith.other ⟨rfl, h⟩ hnow hconcerns

theorem Ordered.limiterEvents {events : List SharedEvent} (h : Ordered events) (env : Platform)
    (v : WebmentionValidator) :
    Webmention.Nondecreasing (events.filterMap (SharedEvent.limiterEvent env v)) :=
  Machine.pairwise_filterMap (fun _ _ => SharedEvent.limiterEvent_now) h

@[simp] theorem sharedStep_now (env : Platform) (state : AppState) (e : SharedEvent) :
    (state.sharedStep env e).2.1 = e.now := by
  obtain ⟨now, call⟩ := e
  cases call <;> rfl

/-- Each request of an address that is let through is paid for by one decision
for that address. -/
theorem passed_le_paid (env : Platform) (a : IpAddr) (s t : Instant) (state : AppState)
    (events : List SharedEvent) :
    state.passed env a s t events ≤
      History.within ((Machine.trace (RateLimiter.step env) state.limiter
        (events.filterMap (SharedEvent.limiterEvent env state.validator))).flatMap
          Reply.decisions) (Decision.allowedIp a) s t := by
  induction events generalizing state with
  | nil => exact Nat.zero_le _
  | cons e events ih =>
      have hrest := ih (state.sharedStep env e).1
      rw [passed, Machine.trace_cons, List.countP_cons, ← passed, sharedStep_now]
      cases hevent : e.limiterEvent env state.validator with
      | none =>
          obtain ⟨hstate, hpasses, _⟩ := sharedStep_of_none hevent a
          rw [hstate] at hrest ⊢
          simpa [hpasses, List.filterMap_cons_none hevent] using hrest
      | some e' =>
          obtain ⟨hstate, _⟩ := sharedStep_of_some hevent a
          have htime := SharedEvent.limiterEvent_now hevent
          rw [hstate] at hrest ⊢
          rw [List.filterMap_cons_some hevent, Machine.trace_cons, List.flatMap_cons,
            History.within, List.countP_append, Nat.add_comm]
          refine Nat.add_le_add ?_ hrest
          split
          · next hin =>
              obtain ⟨hpasses, hwindow⟩ := Bool.and_eq_true_iff.mp hin
              obtain ⟨hconcerns, hallowed⟩ := ipDecision_of_passes hevent hpasses
              rw [SharedEvent.concerns_eq hevent] at hconcerns
              have hmem := RateLimiter.ipDecision_mem_decisions env state.limiter hconcerns
              rw [htime] at hmem
              refine List.countP_pos_iff.mpr ⟨_, hmem, ?_⟩
              simpa [Decision.allowedIp, hallowed] using hwindow
          · exact Nat.zero_le _

/-- Clients of the proxy do not interfere, and the two handlers together let an
address through no more often than its rate allows. -/
theorem proxied_replies_isolated (env : Platform) (validator : WebmentionValidator)
    (config : RateLimitConfig) (a : IpAddr) {events : List SharedEvent} (hevents : Ordered events) :
    (∀ events', Ordered events' →
        events.filter (SharedEvent.concerns env validator a) =
          events'.filter (SharedEvent.concerns env validator a) →
        (new validator config).proxiedReplies env a events =
          (new validator config).proxiedReplies env a events') ∧
      ∀ s t, s ≤ t → ((new validator config).passed env a s t events : ℚ) ≤
        (config.maxRateRpm.toNat : ℚ) +
          (config.maxRateRpm.toNat : ℚ) / 60 * (secs t - secs s) := by
  constructor
  · intro events' hevents' hsame
    rw [proxiedReplies_eq env validator config a hevents,
      proxiedReplies_eq env validator config a hevents', hsame]
  · intro s t hst
    have hpaid := passed_le_paid env a s t (new validator config) events
    apply (Nat.cast_le.mpr hpaid).trans
    exact ip_window_le env (hevents.limiterEvents env validator) a hst

theorem proxied_replies_isolated_pair :
    let a := IpAddr.v4 192 0 2 1
    let form : ProxiedRequest := ⟨a, some ("application/x-www-form-urlencoded".toUTF8.toList)⟩
    let plain : ProxiedRequest := ⟨a, none⟩
    let other : ProxiedRequest := { form with addr := .v4 192 0 2 2 }
    let alone : List SharedEvent := [⟨0, .proxied form⟩, ⟨2, .proxied plain⟩, ⟨3, .proxied form⟩]
    let mixed : List SharedEvent := [⟨0, .proxied form⟩, ⟨1, .proxied other⟩, ⟨2, .cleanup⟩,
      ⟨2, .proxied plain⟩, ⟨3, .proxied form⟩]
    (new ⟨default⟩ default).proxiedReplies sampleWeb a alone =
        (new ⟨default⟩ default).proxiedReplies sampleWeb a mixed ∧
      ((new ⟨default⟩ default).passed sampleWeb a 0 3 alone : ℚ) ≤
        ((default : RateLimitConfig).maxRateRpm.toNat : ℚ) +
          ((default : RateLimitConfig).maxRateRpm.toNat : ℚ) / 60 * (secs 3 - secs 0) := by
  intro a form plain other alone mixed
  have halone : Ordered alone := by decide
  have hmixed : Ordered mixed := by decide
  obtain ⟨hreplies, hpassed⟩ :=
    proxied_replies_isolated sampleWeb ⟨default⟩ default a halone
  exact ⟨hreplies mixed hmixed rfl, hpassed 0 3 (by decide)⟩

end AppState

end CivicConnect.Webmention
