import CivicConnect.Webmention.Limiter

/-!
# Runs of the limiter

An event is one call with its clock reading. A reply lists the decisions of
the stages that the call went through, each marked with the lock section
that answered, and the answer that the caller receives.
-/

namespace CivicConnect.Webmention

open Net

inductive Call where
  | checkIp (ip : IpAddr)
  | checkSource (sourceUrl : String)
  | check (ip : IpAddr) (sourceUrl : Option String)
  | cleanup
  deriving DecidableEq

structure Event where
  now : Instant
  call : Call
  deriving DecidableEq

/-- The lock section that decided a request. -/
inductive Stage where
  | cooldown (ip : IpAddr)
  | bucket (ip : IpAddr)
  | source (key : String)
  deriving DecidableEq

structure Decision where
  stage : Stage
  now : Instant
  outcome : Outcome
  deriving DecidableEq

structure Reply where
  decisions : List Decision
  answer : Option Outcome
  deriving DecidableEq

namespace Stage

def isIp (a : IpAddr) : Stage → Bool
  | cooldown ip => ip = a
  | bucket ip => ip = a
  | source _ => false

def isSource (k : String) : Stage → Bool
  | source key => key = k
  | _ => false

end Stage

namespace Decision

def allowed (d : Decision) : Bool :=
  match d.outcome with
  | .ok (.allowed _ _) => true
  | _ => false

def burstCooldown (d : Decision) : Bool :=
  match d.outcome with
  | .ok (.limited .burstCooldown _) => true
  | _ => false

/-- A burst is detected where the bucket section, not the cooldown read,
refuses with `BurstCooldown`. -/
def detectsBurst (a : IpAddr) (d : Decision) : Bool := d.stage = .bucket a && d.burstCooldown

def allowedIp (a : IpAddr) (d : Decision) : Bool := d.stage.isIp a && d.allowed

def allowedSource (k : String) (d : Decision) : Bool := d.stage.isSource k && d.allowed

end Decision

namespace Call

def carries (a : IpAddr) : Call → Bool
  | checkIp ip => ip = a
  | check ip _ => ip = a
  | _ => false

def isCleanup : Call → Bool
  | cleanup => true
  | _ => false

end Call

namespace RateLimiter

def ipDecision (l : RateLimiter) (ip : IpAddr) (now : Instant) : Decision :=
  match l.cooldownSection ip now with
  | some refusal => ⟨.cooldown ip, now, .ok refusal⟩
  | none => ⟨.bucket ip, now, (l.bucketSection ip now).2⟩

def sourceDecision (l : RateLimiter) (key : String) (now : Instant) : Decision :=
  ⟨.source key, now, (l.sourceSection key now).2⟩

/-- The decisions inside `check`: the source stage is reached when the
address was allowed and a source is given. -/
def checkDecisions (env : Platform) (l : RateLimiter) (ip : IpAddr) (sourceUrl : Option String)
    (now : Instant) : List Decision :=
  let first := l.ipDecision ip now
  match first.allowed, sourceUrl with
  | true, some source =>
      [first, (l.checkIp ip now).1.sourceDecision (env.normalizeSourceUrl source) now]
  | _, _ => [first]

def step (env : Platform) (l : RateLimiter) (e : Event) : RateLimiter × Reply :=
  match e.call with
  | .checkIp ip =>
      let (l', outcome) := l.checkIp ip e.now
      (l', ⟨[l.ipDecision ip e.now], some outcome⟩)
  | .checkSource sourceUrl =>
      let (l', outcome) := l.checkSource env sourceUrl e.now
      (l', ⟨[l.sourceDecision (env.normalizeSourceUrl sourceUrl) e.now], some outcome⟩)
  | .check ip sourceUrl =>
      let (l', outcome) := l.check env ip sourceUrl e.now
      (l', ⟨l.checkDecisions env ip sourceUrl e.now, some outcome⟩)
  | .cleanup => (l.cleanup e.now, ⟨[], none⟩)

def replies (env : Platform) (config : RateLimitConfig) (events : List Event) : List Reply :=
  Machine.trace (step env) (new config) events

def decisions (env : Platform) (config : RateLimitConfig) (events : List Event) : List Decision :=
  (replies env config events).flatMap Reply.decisions

def answers (env : Platform) (config : RateLimitConfig) (events : List Event) : List Outcome :=
  (replies env config events).filterMap Reply.answer

end RateLimiter

def Nondecreasing (events : List Event) : Prop := (events.map Event.now).Pairwise (· ≤ ·)

instance (events : List Event) : Decidable (Nondecreasing events) :=
  inferInstanceAs (Decidable (List.Pairwise _ _))

theorem Nondecreasing.legal {events : List Event} (h : Nondecreasing events) :
    Machine.Legal (fun clock (e : Event) => clock ≤ e.now) (fun _ e => e.now) 0 events :=
  Machine.legal_of_pairwise Event.now (fun _ _ => Nat.zero_le _) h

/-- What the caller of one call receives, from the decisions of its stages. -/
def combine : List Decision → Option Outcome
  | [] => none
  | [only] => some only.outcome
  | first :: second :: _ => some (if second.allowed then first.outcome else second.outcome)

namespace RateLimiter

theorem checkIp_outcome (l : RateLimiter) (ip : IpAddr) (now : Instant) :
    (l.checkIp ip now).2 = (l.ipDecision ip now).outcome := by
  rw [checkIp, ipDecision]
  cases l.cooldownSection ip now <;> rfl

theorem check_refused (env : Platform) {l : RateLimiter} {ip : IpAddr} {now : Instant}
    (sourceUrl : Option String) (h : (l.ipDecision ip now).allowed = false) :
    l.check env ip sourceUrl now = l.checkIp ip now := by
  rw [Decision.allowed, ← checkIp_outcome] at h
  rw [check]
  split
  · next heq => simp [heq] at h
  · rfl

theorem check_none (env : Platform) (l : RateLimiter) (ip : IpAddr) (now : Instant) :
    l.check env ip none now = l.checkIp ip now := by
  rw [check]
  split
  · next heq => exact heq.symm
  · rfl

/-- An allowed address hands the request on to the source stage, which can
only turn the answer into a refusal. -/
theorem check_some (env : Platform) {l : RateLimiter} {ip : IpAddr} {now : Instant}
    (source : String) (h : (l.ipDecision ip now).allowed = true) :
    l.check env ip (some source) now =
      let next := (l.checkIp ip now).1
      let key := env.normalizeSourceUrl source
      ((next.sourceSection key now).1,
        if (next.sourceDecision key now).allowed then (l.checkIp ip now).2
        else (next.sourceSection key now).2) := by
  rw [Decision.allowed, ← checkIp_outcome] at h
  rw [check]
  split
  · next next remaining resetIn heq =>
      simp only [heq, checkSource, sourceDecision, Decision.allowed]
      split
      · next hsource => rw [hsource]; rfl
      · next hrefused =>
          refine Prod.ext rfl ?_
          dsimp only
          split
          · next r w hallowed => exact (hrefused _ r w (Prod.ext rfl hallowed)).elim
          · simp
  · next hrefused =>
      split at h
      · next r w heq => exact (hrefused _ r w (Prod.ext rfl heq)).elim
      · cases h

theorem check_outcome (env : Platform) (l : RateLimiter) (ip : IpAddr)
    (sourceUrl : Option String) (now : Instant) :
    some (l.check env ip sourceUrl now).2 = combine (l.checkDecisions env ip sourceUrl now) := by
  have hfirst := l.checkIp_outcome ip now
  cases hallowed : (l.ipDecision ip now).allowed with
  | false => simp [check_refused env sourceUrl hallowed, checkDecisions, hallowed, combine, hfirst]
  | true =>
      cases sourceUrl with
      | none => simp [check_none, checkDecisions, hallowed, combine, hfirst]
      | some source =>
          rw [check_some env source hallowed]
          simp [checkDecisions, hallowed, combine, hfirst, sourceDecision]

theorem bucketSection_allowed_iff (l : RateLimiter) (ip : IpAddr) (now : Instant) :
    (Decision.mk (.bucket ip) now (l.bucketSection ip now).2).allowed = true ↔
      ¬ l.burstAt ip now ∧ 1 ≤ ((l.ipBucket ip now).refill now).tokens := by
  by_cases hburst : l.burstAt ip now
  · rw [bucketSection_burst hburst]
    simp [Decision.allowed, hburst]
  · rw [bucketSection_pay hburst]
    rcases lt_or_ge ((l.prunedBucket ip now).refill now).tokens 1 with hlt | hone
    · rw [TokenBucket.tryConsume_of_lt_one hlt]
      have hshort : ¬ 1 ≤ ((l.ipBucket ip now).refill now).tokens := not_le.mpr hlt
      cases ((l.prunedBucket ip now).refill now).timeUntilAvailable <;>
        simp [Decision.allowed, hshort, Except.map]
    · rw [TokenBucket.tryConsume_of_one_le hone]
      have hroom : 1 ≤ ((l.ipBucket ip now).refill now).tokens := hone
      simp [Decision.allowed, hburst, hroom]

/-- An allowed address has paid from its pruned bucket, and nothing else has
changed. -/
theorem checkIp_allowed {l : RateLimiter} {ip : IpAddr} {now : Instant}
    (h : (l.ipDecision ip now).allowed = true) :
    l.cooldownSection ip now = none ∧ ¬ l.burstAt ip now ∧
      1 ≤ ((l.ipBucket ip now).refill now).tokens ∧
      l.checkIp ip now =
        ({ l with ipBuckets := l.ipBuckets.set ip ((l.prunedBucket ip now).paid now) },
          .ok (.allowed ((l.prunedBucket ip now).paid now).remaining
            l.config.windowDuration)) := by
  rw [ipDecision] at h
  rw [checkIp]
  cases hcooldown : l.cooldownSection ip now with
  | some refusal =>
      obtain ⟨_, _, _, rfl⟩ := cooldownSection_eq_some hcooldown
      simp [hcooldown, Decision.allowed] at h
  | none =>
      rw [hcooldown] at h
      obtain ⟨hquiet, hone⟩ := (l.bucketSection_allowed_iff ip now).mp h
      have hpay : (l.prunedBucket ip now).tryConsume now =
          ((l.prunedBucket ip now).paid now, true) := TokenBucket.tryConsume_of_one_le hone
      refine ⟨rfl, hquiet, hone, ?_⟩
      rw [bucketSection_pay hquiet, hpay]
      rfl

theorem bucketSection_detects (l : RateLimiter) (ip a : IpAddr) (now : Instant) :
    (Decision.mk (.bucket ip) now (l.bucketSection ip now).2).detectsBurst a =
      (decide (ip = a) && decide (l.burstAt ip now)) := by
  by_cases hburst : l.burstAt ip now
  · rw [bucketSection_burst hburst]
    simp [Decision.detectsBurst, Decision.burstCooldown, hburst]
  · rw [bucketSection_pay hburst]
    rcases lt_or_ge ((l.prunedBucket ip now).refill now).tokens 1 with hlt | hone
    · rw [TokenBucket.tryConsume_of_lt_one hlt]
      cases ((l.prunedBucket ip now).refill now).timeUntilAvailable <;>
        simp [Decision.detectsBurst, Decision.burstCooldown, hburst, Except.map]
    · rw [TokenBucket.tryConsume_of_one_le hone]
      simp [Decision.detectsBurst, Decision.burstCooldown, hburst]

theorem step_answer (env : Platform) (l : RateLimiter) (e : Event) :
    (step env l e).2.answer = combine (step env l e).2.decisions := by
  obtain ⟨now, call⟩ := e
  cases call with
  | checkIp ip => exact congrArg some (l.checkIp_outcome ip now)
  | checkSource sourceUrl => rfl
  | check ip sourceUrl => exact l.check_outcome env ip sourceUrl now
  | cleanup => rfl

end RateLimiter

end CivicConnect.Webmention
