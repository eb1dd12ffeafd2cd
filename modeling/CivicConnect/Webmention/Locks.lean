import CivicConnect.Library.SerialTasks
import CivicConnect.Webmention.Runs

/-!
# The locks of the limiter

Each call as the lock operations and the accesses of its body. A burst takes the
cooldown lock under the bucket lock, and no call takes them the other way round.
Calls that run one after another are runs of the sequential model.
-/

namespace CivicConnect.Webmention

open Net LockedTasks

inductive Lock where
  | ipBuckets
  | sourceBuckets
  | cooldowns
  deriving DecidableEq

abbrev Body := LockedTasks.Body Lock Instant RateLimiter (Option Outcome)

abbrev System := LockedTasks.System Lock Instant RateLimiter (Option Outcome)

def Lock.rank : Lock → ℕ
  | ipBuckets => 0
  | sourceBuckets => 0
  | cooldowns => 1

namespace RateLimiter

/-- The entry of the address, made if it is absent, after burst detection. -/
def detectBurst (l : RateLimiter) (ip : IpAddr) (now : Instant) : RateLimiter × Bool :=
  let (bucket, burst) := (l.ipBucket ip now).detectBurst l.config.burstThresholdMultiplier now
  ({ l with ipBuckets := l.ipBuckets.set ip bucket }, burst)

def applyCooldown (l : RateLimiter) (ip : IpAddr) (now : Instant) : RateLimiter :=
  { l with cooldowns := l.cooldowns.set ip ⟨now + l.config.cooldownDuration⟩ }

def tryConsume (l : RateLimiter) (ip : IpAddr) (now : Instant) : RateLimiter × Outcome :=
  let (bucket, consumed) := (l.ipBucket ip now).tryConsume now
  ({ l with ipBuckets := l.ipBuckets.set ip bucket },
    if consumed then .ok (.allowed bucket.remaining l.config.windowDuration)
    else (bucket.timeUntilAvailable).map (.limited .ipRateExceeded))

end RateLimiter

namespace Call

/-- `check_ip` from the bucket lock on. A guard is dropped at the end of its scope,
the cooldown guard of a burst before the bucket guard. -/
def bucketBody (ip : IpAddr) (next : Outcome → Body) : Body :=
  .acquire .ipBuckets .write <|
    .access (fun now l => (l.detectBurst ip now).1) fun now l =>
      if (l.detectBurst ip now).2 then
        .withLock .cooldowns .write (fun now l => l.applyCooldown ip now) fun _ l =>
          .release .ipBuckets (next (.ok (.limited .burstCooldown l.config.cooldownDuration)))
      else
        .access (fun now l => (l.tryConsume ip now).1) fun now l =>
          .release .ipBuckets (next (l.tryConsume ip now).2)

def checkIpBody (ip : IpAddr) (next : Outcome → Body) : Body :=
  .withLock .cooldowns .read (fun _ l => l) fun now l =>
    match l.cooldownSection ip now with
    | some refusal => next (.ok refusal)
    | none => bucketBody ip next

def checkSourceBody (env : Platform) (sourceUrl : String) (next : Outcome → Body) : Body :=
  let normalized := env.normalizeSourceUrl sourceUrl
  .withLock .sourceBuckets .write (fun now l => (l.sourceSection normalized now).1) fun now l =>
    next (l.sourceSection normalized now).2

def checkBody (env : Platform) (ip : IpAddr) (sourceUrl : Option String) : Body :=
  checkIpBody ip fun ipResult =>
    match ipResult, sourceUrl with
    | .ok (.allowed _ _), some source =>
        checkSourceBody env source fun sourceResult =>
          match sourceResult with
          | .ok (.allowed _ _) => .done (some ipResult)
          | refused => .done (some refused)
    | _, _ => .done (some ipResult)

def cleanupBody : Body :=
  .access (fun _ l => l) fun now _ =>
    .withLock .ipBuckets .write (fun _ l => l.cleanIpBuckets now) fun _ _ =>
      .withLock .sourceBuckets .write (fun _ l => l.cleanSourceBuckets now) fun _ _ =>
        .withLock .cooldowns .write (fun _ l => l.cleanCooldowns now) fun _ _ => .done none

def body (env : Platform) : Call → Body
  | checkIp ip => checkIpBody ip fun outcome => .done (some outcome)
  | checkSource sourceUrl => checkSourceBody env sourceUrl fun outcome => .done (some outcome)
  | check ip sourceUrl => checkBody env ip sourceUrl
  | cleanup => cleanupBody

end Call

namespace RateLimiter

variable {l : RateLimiter} {ip : IpAddr} {now : Instant}

theorem detectBurst_fst (l : RateLimiter) (ip : IpAddr) (now : Instant) :
    (l.detectBurst ip now).1 = { l with ipBuckets := l.ipBuckets.set ip (l.prunedBucket ip now) } :=
  rfl

theorem detectBurst_snd_iff : (l.detectBurst ip now).2 = true ↔ l.burstAt ip now :=
  TokenBucket.detectBurst_snd_iff _ _ _

/-- The two accesses under the bucket lock are the section of the sequential
model. -/
theorem bucketSection_eq (l : RateLimiter) (ip : IpAddr) (now : Instant) : l.bucketSection ip now =
    if (l.detectBurst ip now).2 then
      ((l.detectBurst ip now).1.applyCooldown ip now,
        .ok (.limited .burstCooldown l.config.cooldownDuration))
    else (l.detectBurst ip now).1.tryConsume ip now := by
  by_cases hburst : l.burstAt ip now
  · rw [if_pos (detectBurst_snd_iff.mpr hburst), bucketSection_burst hburst]
    rfl
  · rw [if_neg (mt detectBurst_snd_iff.mp hburst), bucketSection_pay hburst, detectBurst_fst]
    have hbucket : ({ l with ipBuckets := l.ipBuckets.set ip (l.prunedBucket ip now) } :
        RateLimiter).ipBucket ip now = l.prunedBucket ip now := by
      rw [ipBucket, KeyedMap.get_set_self, Option.getD_some]
    rw [tryConsume, hbucket]
    dsimp only
    rw [KeyedMap.set_set]

end RateLimiter

namespace Call

variable {next : Outcome → Body}

theorem eval_bucketBody (ip : IpAddr) (next : Outcome → Body) (now : Instant) (l : RateLimiter) :
    (bucketBody ip next).eval now l =
      (next (l.bucketSection ip now).2).eval now (l.bucketSection ip now).1 := by
  rw [RateLimiter.bucketSection_eq]
  simp only [bucketBody, LockedTasks.Body.eval]
  split
  · rfl
  · rfl

theorem eval_checkIpBody (ip : IpAddr) (next : Outcome → Body) (now : Instant) (l : RateLimiter) :
    (checkIpBody ip next).eval now l =
      (next (l.checkIp ip now).2).eval now (l.checkIp ip now).1 := by
  rw [checkIpBody, LockedTasks.Body.eval_withLock, RateLimiter.checkIp]
  cases l.cooldownSection ip now with
  | some refusal => rfl
  | none => exact eval_bucketBody ip next now l

theorem eval_checkBody (env : Platform) (ip : IpAddr) (sourceUrl : Option String) (now : Instant)
    (l : RateLimiter) : (checkBody env ip sourceUrl).eval now l =
      ((l.check env ip sourceUrl now).1, some (l.check env ip sourceUrl now).2) := by
  rw [checkBody, eval_checkIpBody, RateLimiter.check]
  obtain ⟨l', outcome⟩ := l.checkIp ip now
  rcases outcome with _ | ⟨remaining, resetIn⟩ | ⟨reason, retryAfter⟩
  · rfl
  · cases sourceUrl with
    | none => rfl
    | some source =>
        dsimp only
        rw [checkSourceBody, LockedTasks.Body.eval_withLock, RateLimiter.checkSource]
        rcases l'.sourceSection (env.normalizeSourceUrl source) now with ⟨l'', _ | _ | _⟩ <;> rfl
  · rfl

/-- A call that runs by itself is a step of the sequential model. -/
theorem eval_body (env : Platform) (call : Call) (now : Instant) (l : RateLimiter) :
    (call.body env).eval now l =
      ((l.step env ⟨now, call⟩).1, (l.step env ⟨now, call⟩).2.answer) := by
  cases call with
  | checkIp ip => exact eval_checkIpBody ip (fun outcome => .done (some outcome)) now l
  | checkSource sourceUrl => rfl
  | check ip sourceUrl => exact eval_checkBody env ip sourceUrl now l
  | cleanup => rfl

variable {n : ℕ}

theorem within_bucketBody (ip : IpAddr) (hnext : ∀ outcome, (next outcome).Within n) :
    (bucketBody ip next).Within (n + 8) := by
  refine ⟨by omega, by omega, fun now l => ?_⟩
  dsimp only
  split
  · apply LockedTasks.Body.Within.mono (n := n + 1 + 4) _ (by omega)
    exact LockedTasks.Body.within_withLock fun _ _ => ⟨by omega, hnext _⟩
  · exact ⟨by omega, fun _ _ => ⟨by omega, (hnext _).mono (by omega)⟩⟩

theorem within_checkIpBody (ip : IpAddr) (hnext : ∀ outcome, (next outcome).Within n) :
    (checkIpBody ip next).Within (n + 12) := by
  apply LockedTasks.Body.within_withLock
  intro now l
  cases l.cooldownSection ip now with
  | some refusal => exact (hnext (.ok refusal)).mono (by omega)
  | none => exact within_bucketBody ip hnext

theorem within_checkSourceBody (env : Platform) (sourceUrl : String)
    (hnext : ∀ outcome, (next outcome).Within n) :
    (checkSourceBody env sourceUrl next).Within (n + 4) :=
  LockedTasks.Body.within_withLock fun _ _ => hnext _

theorem within_checkBody (env : Platform) (ip : IpAddr) (sourceUrl : Option String) :
    (checkBody env ip sourceUrl).Within 16 := by
  apply within_checkIpBody (n := 4)
  intro outcome
  split
  · apply within_checkSourceBody (n := 0)
    intro outcome
    split
    · exact LockedTasks.Body.within_done _
    · exact LockedTasks.Body.within_done _
  · exact LockedTasks.Body.within_done _

theorem within_body (env : Platform) (call : Call) : (call.body env).Within 16 := by
  cases call with
  | checkIp ip =>
      apply LockedTasks.Body.Within.mono (n := 12) _ (by omega)
      exact within_checkIpBody ip fun _ => LockedTasks.Body.within_done _
  | checkSource sourceUrl =>
      apply LockedTasks.Body.Within.mono (n := 4) _ (by omega)
      exact within_checkSourceBody env sourceUrl fun _ => LockedTasks.Body.within_done _
  | check ip sourceUrl => exact within_checkBody env ip sourceUrl
  | cleanup =>
      refine ⟨by omega, fun now l => ?_⟩
      apply LockedTasks.Body.Within.mono (n := 0 + 4 + 4 + 4) _ (by omega)
      apply LockedTasks.Body.within_withLock
      intro _ _
      apply LockedTasks.Body.within_withLock
      intro _ _
      apply LockedTasks.Body.within_withLock
      intro _ _
      exact LockedTasks.Body.within_done _

theorem ordered_bucketBody (ip : IpAddr) (hnext : ∀ outcome, (next outcome).Ordered Lock.rank ∅) :
    (bucketBody ip next).Ordered Lock.rank ∅ := by
  have hrank : ∀ l ∈ insert Lock.ipBuckets (∅ : Set Lock), Lock.rank l < Lock.rank .cooldowns := by
    rintro l (rfl | hl)
    · exact Nat.zero_lt_one
    · exact absurd hl (Set.notMem_empty l)
  refine ⟨fun l hl => absurd hl (Set.notMem_empty l), ?_⟩
  intro now l
  dsimp only
  split
  · apply LockedTasks.Body.ordered_withLock hrank
    intro now l
    exact LockedTasks.Body.ordered_release (Set.notMem_empty _) (hnext _)
  · intro now l
    exact LockedTasks.Body.ordered_release (Set.notMem_empty _) (hnext _)

/-- A lock that is taken alone is taken in order. -/
theorem ordered_section {lock : Lock} {mode : Mode} {write : Instant → RateLimiter → RateLimiter}
    {next : Instant → RateLimiter → Body} (hnext : ∀ now l, (next now l).Ordered Lock.rank ∅) :
    LockedTasks.Body.Ordered Lock.rank ∅ (.withLock lock mode write next) :=
  LockedTasks.Body.ordered_withLock (fun l hl => absurd hl (Set.notMem_empty l)) hnext

theorem ordered_checkIpBody (ip : IpAddr) (hnext : ∀ outcome, (next outcome).Ordered Lock.rank ∅) :
    (checkIpBody ip next).Ordered Lock.rank ∅ := by
  apply ordered_section
  intro now l
  cases l.cooldownSection ip now with
  | some refusal => exact hnext (.ok refusal)
  | none => exact ordered_bucketBody ip hnext

theorem ordered_checkSourceBody (env : Platform) (sourceUrl : String)
    (hnext : ∀ outcome, (next outcome).Ordered Lock.rank ∅) :
    (checkSourceBody env sourceUrl next).Ordered Lock.rank ∅ :=
  ordered_section fun _ _ => hnext _

theorem ordered_checkBody (env : Platform) (ip : IpAddr) (sourceUrl : Option String) :
    (checkBody env ip sourceUrl).Ordered Lock.rank ∅ := by
  apply ordered_checkIpBody
  intro outcome
  split
  · apply ordered_checkSourceBody
    intro outcome
    split
    · exact LockedTasks.Body.ordered_done _
    · exact LockedTasks.Body.ordered_done _
  · exact LockedTasks.Body.ordered_done _

theorem ordered_body (env : Platform) (call : Call) : (call.body env).Ordered Lock.rank ∅ := by
  cases call with
  | checkIp ip =>
      rw [body]
      apply ordered_checkIpBody
      intro outcome
      exact LockedTasks.Body.ordered_done _
  | checkSource sourceUrl =>
      rw [body]
      apply ordered_checkSourceBody
      intro outcome
      exact LockedTasks.Body.ordered_done _
  | check ip sourceUrl => exact ordered_checkBody env ip sourceUrl
  | cleanup =>
      intro now l
      apply ordered_section
      intro _ _
      apply ordered_section
      intro _ _
      apply ordered_section
      intro _ _
      exact LockedTasks.Body.ordered_done _

end Call

namespace RateLimiter

/-- The calls never wait for one another in a circle: in every state that any
number of them reaches, one that has not returned can go on. -/
theorem calls_never_deadlock (env : Platform) (config : RateLimitConfig)
    (turns : List (LockedTasks.Turn Call Instant)) :
    let s := Machine.final (System.step (Call.body env)) (System.start (new config)) turns
    (∃ body ∈ s.tasks, body.finished = false) →
      ∃ i, ∀ now, (System.step (Call.body env) s (.run i now)).2 = true :=
  LockedTasks.System.no_deadlock Lock.rank (Call.ordered_body env) (new config) turns

/-- One call reads the cooldown table, a cleanup has the address buckets, and
another call waits. -/
theorem calls_never_deadlock_sample :
    let turns : List (LockedTasks.Turn Call Instant) :=
      [.spawn (.checkIp (.v4 192 0 2 1)), .spawn .cleanup, .spawn (.check (.v4 192 0 2 2) none),
        .run 0 5, .run 0 5, .run 1 6, .run 1 6, .run 1 6, .run 2 7]
    let s := Machine.final (System.step (Call.body default)) (System.start (new default)) turns
    (∃ body ∈ s.tasks, body.finished = false) ∧
      ∃ i, ∀ now, (System.step (Call.body default) s (.run i now)).2 = true :=
  have hworking := ⟨_, List.mem_cons_self, rfl⟩
  ⟨hworking, calls_never_deadlock default default _ hworking⟩

/-- The bodies of the calls, evaluated one after another, are a run of the
sequential model. -/
theorem run_evaluate (env : Platform) (l : RateLimiter) (events : List Event) :
    Machine.final (System.evaluate (Call.body env)) l (events.map fun e => (e.call, e.now)) =
        Machine.final (step env) l events ∧
      Machine.trace (System.evaluate (Call.body env)) l (events.map fun e => (e.call, e.now)) =
        (Machine.trace (step env) l events).map Reply.answer := by
  induction events generalizing l with
  | nil => exact ⟨rfl, rfl⟩
  | cons e events ih =>
      obtain ⟨now, call⟩ := e
      have hcall : System.evaluate (Call.body env) l (call, now) =
          ((l.step env ⟨now, call⟩).1, (l.step env ⟨now, call⟩).2.answer) :=
        Call.eval_body env call now l
      obtain ⟨hfinal, htrace⟩ := ih (l.step env ⟨now, call⟩).1
      constructor
      · rw [List.map_cons, Machine.final_cons, Machine.final_cons, hcall, hfinal]
      · rw [List.map_cons, Machine.trace_cons, Machine.trace_cons, List.map_cons, hcall, htrace]

/-- Calls that take the locks one after another, each with its clock reading, all
return, and they leave the tables and give the answers of the sequential model.
Sixteen turns are enough for a call. -/
theorem serial_calls (env : Platform) (config : RateLimitConfig) (events : List Event) {n : ℕ}
    (hn : 16 ≤ n) :
    Machine.final (System.step (Call.body env)) (System.start (new config))
        (System.serial n 0 (events.map fun e => (e.call, e.now))) =
      ⟨Machine.final (step env) (new config) events, fun _ => .free,
        (replies env config events).map fun reply => .done reply.answer⟩ := by
  have hwithin := fun call => (Call.within_body env call).mono hn
  obtain ⟨hfinal, htrace⟩ := run_evaluate env (new config) events
  have hserial := System.final_serial hwithin (Call.ordered_body env) (new config) []
    (events.map fun e => (e.call, e.now))
  rw [hfinal, htrace, List.nil_append, List.map_map] at hserial
  exact hserial

/-- Two checks of one client with a cleanup between them. -/
theorem serial_calls_sample :
    let events : List Event := [⟨5, .check (.v4 192 0 2 1) (some "https://a.example/post")⟩,
      ⟨6, .cleanup⟩, ⟨7, .check (.v4 192 0 2 1) (some "https://a.example/post")⟩]
    Machine.final (System.step (Call.body default)) (System.start (new default))
        (System.serial 20 0 (events.map fun e => (e.call, e.now))) =
      ⟨Machine.final (step default) (new default) events, fun _ => .free,
        (replies default default events).map fun reply => .done reply.answer⟩ :=
  serial_calls default default _ (by decide)

end RateLimiter

end CivicConnect.Webmention
