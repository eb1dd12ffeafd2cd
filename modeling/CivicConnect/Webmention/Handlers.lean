import CivicConnect.Webmention.Runs
import CivicConnect.Webmention.Validator

/-!
# The check endpoint

A request is answered after its address is parsed, its content is validated
and the limiter has decided. Only a request that passes the first two steps
reaches the limiter, so a run of the service is a run of the limiter with the
other requests left out.
-/

namespace CivicConnect.Webmention

open Net

structure AppState where
  limiter : RateLimiter
  validator : WebmentionValidator

structure CheckRequest where
  ip : String
  source : Option String
  target : Option String
  contentType : Option String
  deriving DecidableEq, Repr

inductive StatusCode where
  | ok
  | badRequest
  deriving DecidableEq, Repr

structure CheckResponse where
  allowed : Bool
  reason : Option String
  retryAfterSecs : Option ℕ
  remaining : Option ℕ
  deriving DecidableEq, Repr

abbrev Response := Except Panic (StatusCode × CheckResponse)

def asSecs (d : Duration) : ℕ := d / nanosPerSec

def respond : RateLimitResult → StatusCode × CheckResponse
  | .allowed remaining _ => (.ok, ⟨true, none, none, some remaining⟩)
  | .limited reason retryAfter =>
      (.ok, ⟨false, some reason.display, some (asSecs retryAfter), none⟩)

inductive ServiceCall where
  | check (req : CheckRequest)
  | cleanup

structure ServiceEvent where
  now : Instant
  call : ServiceCall

structure Exchange where
  now : Instant
  request : CheckRequest
  response : Response
  deriving DecidableEq

def Exchange.allowed (x : Exchange) : Bool :=
  match x.response with
  | .ok (_, response) => response.allowed
  | .error _ => false

/-- The address of a request that reaches the limiter. -/
def CheckRequest.accepted (env : Platform) (v : WebmentionValidator) (req : CheckRequest) :
    Option IpAddr :=
  match v.validate env req.contentType req.source req.target with
  | .ok () => parseIpAddr req.ip
  | .error _ => none

namespace AppState

def new (validator : WebmentionValidator) (config : RateLimitConfig) : AppState :=
  ⟨RateLimiter.new config, validator⟩

def check (env : Platform) (state : AppState) (req : CheckRequest) (now : Instant) :
    AppState × Response :=
  match parseIpAddr req.ip with
  | none => (state, .ok (.badRequest, ⟨false, some "Invalid IP address format", none, none⟩))
  | some ip =>
      match state.validator.validate env req.contentType req.source req.target with
      | .error err => (state, .ok (.ok, ⟨false, some (err.display env), none, none⟩))
      | .ok () =>
          let (limiter, outcome) := state.limiter.check env ip req.source now
          ({ state with limiter := limiter }, outcome.map respond)

def step (env : Platform) (state : AppState) (e : ServiceEvent) : AppState × Option Exchange :=
  match e.call with
  | .check req =>
      let (state, response) := state.check env req e.now
      (state, some ⟨e.now, req, response⟩)
  | .cleanup => ({ state with limiter := state.limiter.cleanup e.now }, none)

def exchanges (env : Platform) (state : AppState) (events : List ServiceEvent) : List Exchange :=
  (Machine.trace (step env) state events).filterMap id

end AppState

def ServiceEvent.limiterEvent (env : Platform) (v : WebmentionValidator) (e : ServiceEvent) :
    Option Event :=
  match e.call with
  | .check req => (req.accepted env v).map fun ip => ⟨e.now, .check ip req.source⟩
  | .cleanup => some ⟨e.now, .cleanup⟩

namespace AppState

theorem check_rejected {env : Platform} {state : AppState} {req : CheckRequest} (now : Instant)
    (h : req.accepted env state.validator = none) :
    (state.check env req now).1 = state ∧
      ∃ status response, (state.check env req now).2 = .ok (status, response) ∧
        response.allowed = false := by
  unfold CheckRequest.accepted at h
  rw [check]
  cases hip : parseIpAddr req.ip with
  | none => exact ⟨rfl, _, _, rfl, rfl⟩
  | some ip =>
      cases hvalid : state.validator.validate env req.contentType req.source req.target with
      | error err => exact ⟨rfl, _, _, rfl, rfl⟩
      | ok => simp [hvalid, hip] at h

theorem check_accepted {env : Platform} {state : AppState} {req : CheckRequest} (now : Instant)
    {ip : IpAddr} (h : req.accepted env state.validator = some ip) :
    state.check env req now =
      ({ state with limiter := (state.limiter.check env ip req.source now).1 },
        (state.limiter.check env ip req.source now).2.map respond) := by
  rw [CheckRequest.accepted] at h
  rw [check]
  cases hvalid : state.validator.validate env req.contentType req.source req.target with
  | error err => simp [hvalid] at h
  | ok =>
      have hip : parseIpAddr req.ip = some ip := by simpa [hvalid] using h
      simp [hip]

@[simp] theorem exchanges_nil (env : Platform) (state : AppState) :
    state.exchanges env [] = [] := rfl

end AppState

end CivicConnect.Webmention
