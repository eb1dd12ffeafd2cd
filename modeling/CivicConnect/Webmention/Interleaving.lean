import CivicConnect.Webmention.Runs

/-!
# Interleaved calls of the limiter

Every call is a task that runs one lock section at a time, and other tasks
may run in between. `check_ip` reads the cooldown table in one section and
decides under the bucket lock in a later one, while `cleanup` takes its clock
reading before its three sections. Between the two sections of a call another
call may detect a burst, and the cooldown that it records goes unread.
-/

namespace CivicConnect.Webmention

open Net

inductive Job where
  | checkIp (ip : IpAddr)
  | cleanup
  deriving DecidableEq

/-- A task is named after the section that it runs next. -/
inductive Task where
  | ready (job : Job)
  | bucketLock (ip : IpAddr)
  | ipBucketsLock (now : Instant)
  | sourceBucketsLock (now : Instant)
  | cooldownsLock (now : Instant)
  | finished
  deriving DecidableEq

structure Turn where
  task : ℕ
  now : Instant
  deriving DecidableEq

/-- What a turn did: a cooldown read that found none running, a decision, or
nothing that a caller could see. -/
inductive Ran where
  | passed (ip : IpAddr)
  | decided (d : Decision)
  | silent
  deriving DecidableEq

structure Entry where
  turn : Turn
  ran : Ran
  deriving DecidableEq

structure World where
  limiter : RateLimiter
  tasks : List Task

def Task.reading : Task → Option Instant
  | ipBucketsLock now => some now
  | sourceBucketsLock now => some now
  | cooldownsLock now => some now
  | _ => none

def Entry.detects (ip : IpAddr) (e : Entry) : Bool :=
  match e.ran with
  | .decided d => d.detectsBurst ip
  | _ => false

namespace World

def start (config : RateLimitConfig) (jobs : List Job) : World :=
  ⟨RateLimiter.new config, jobs.map Task.ready⟩

def goOn (w : World) (i : ℕ) (task : Task) : World := { w with tasks := w.tasks.set i task }

def step (w : World) (turn : Turn) : World × Entry :=
  match w.tasks[turn.task]? with
  | some (.ready (.checkIp ip)) =>
      match w.limiter.cooldownSection ip turn.now with
      | some refusal =>
          (w.goOn turn.task .finished, ⟨turn, .decided ⟨.cooldown ip, turn.now, .ok refusal⟩⟩)
      | none => (w.goOn turn.task (.bucketLock ip), ⟨turn, .passed ip⟩)
  | some (.bucketLock ip) =>
      let (l, outcome) := w.limiter.bucketSection ip turn.now
      ({ w with limiter := l }.goOn turn.task .finished,
        ⟨turn, .decided ⟨.bucket ip, turn.now, outcome⟩⟩)
  | some (.ready .cleanup) => (w.goOn turn.task (.ipBucketsLock turn.now), ⟨turn, .silent⟩)
  | some (.ipBucketsLock now) =>
      ({ w with limiter := w.limiter.cleanIpBuckets now }.goOn turn.task (.sourceBucketsLock now),
        ⟨turn, .silent⟩)
  | some (.sourceBucketsLock now) =>
      ({ w with limiter := w.limiter.cleanSourceBuckets now }.goOn turn.task (.cooldownsLock now),
        ⟨turn, .silent⟩)
  | some (.cooldownsLock now) =>
      ({ w with limiter := w.limiter.cleanCooldowns now }.goOn turn.task .finished,
        ⟨turn, .silent⟩)
  | some .finished => (w, ⟨turn, .silent⟩)
  | none => (w, ⟨turn, .silent⟩)

/-- The turn does not allow an address whose cooldown is recorded and
running. -/
def CooldownHolds (w : World) (turn : Turn) : Prop :=
  ∀ ip state, w.tasks[turn.task]? = some (.bucketLock ip) →
    w.limiter.cooldowns.get ip = some state → turn.now < state.cooldownUntil →
      (Decision.mk (.bucket ip) turn.now (w.limiter.bucketSection ip turn.now).2).allowed = false

/-- Since the task found no cooldown running, another one has recorded a
cooldown for the address, and it is still running. -/
def Overtaken (config : RateLimitConfig) (log : List Entry) (turn : Turn) (ip : IpAddr) : Prop :=
  ∃ earlier read later, log = earlier ++ read :: later ∧ read.turn.task = turn.task ∧
    read.ran = .passed ip ∧
      ∃ e ∈ later, e.detects ip = true ∧ turn.now < e.turn.now + config.cooldownDuration

/-- What the log and the tasks say about the cooldown table. -/
structure Coherent (config : RateLimitConfig) (clock : Instant) (w : World) (log : List Entry) :
    Prop where
  sameConfig : w.limiter.config = config
  logged_le : ∀ e ∈ log, e.turn.now ≤ clock
  readings_le : ∀ (i : ℕ) (task : Task), w.tasks[i]? = some task → ∀ now ∈ task.reading, now ≤ clock
  recorded : ∀ e ∈ log, ∀ ip, e.detects ip = true →
    clock < e.turn.now + config.cooldownDuration →
      ∃ state, w.limiter.cooldowns.get ip = some state ∧
        e.turn.now + config.cooldownDuration ≤ state.cooldownUntil
  passed : ∀ i ip, w.tasks[i]? = some (.bucketLock ip) →
    ∃ earlier read later, log = earlier ++ read :: later ∧ read.turn.task = i ∧
      read.ran = .passed ip ∧
        ∀ state, w.limiter.cooldowns.get ip = some state → state.cooldownUntil ≤ read.turn.now ∨
          ∃ e ∈ later, e.detects ip = true ∧
            state.cooldownUntil = e.turn.now + config.cooldownDuration

variable {config : RateLimitConfig} {clock : Instant} {w w' : World} {log : List Entry}
  {turn : Turn}

theorem coherent_start (config : RateLimitConfig) (jobs : List Job) :
    Coherent config 0 (start config jobs) [] where
  sameConfig := rfl
  logged_le := by simp
  readings_le i task htask now hnow := by
    obtain ⟨job, _, rfl⟩ := List.mem_map.mp (List.mem_of_getElem? htask)
    simp [Task.reading] at hnow
  recorded := by simp
  passed i ip htask := by
    obtain ⟨job, _, hjob⟩ := List.mem_map.mp (List.mem_of_getElem? htask)
    cases hjob

theorem Coherent.logged_le_append (h : Coherent config clock w log) (hclock : clock ≤ turn.now)
    {ran : Ran} : ∀ e ∈ log ++ [⟨turn, ran⟩], e.turn.now ≤ turn.now := by
  intro e he
  rcases List.mem_append.mp he with he | he
  · exact (h.logged_le e he).trans hclock
  · rw [List.mem_singleton.mp he]

theorem Coherent.quiet (h : Coherent config clock w log) (hclock : clock ≤ turn.now) {ran : Ran}
    (hran : ∀ ip, (Entry.mk turn ran).detects ip = false)
    (hconfig : w'.limiter.config = w.limiter.config)
    (hold : ∀ ip state, w'.limiter.cooldowns.get ip = some state →
      w.limiter.cooldowns.get ip = some state)
    (hrunning : ∀ ip state, w.limiter.cooldowns.get ip = some state →
      turn.now < state.cooldownUntil → w'.limiter.cooldowns.get ip = some state)
    (htasks : ∀ (i : ℕ) (task : Task), w'.tasks[i]? = some task → w.tasks[i]? = some task ∨
      (∀ now ∈ task.reading, now ≤ turn.now) ∧ ∀ ip, task = .bucketLock ip →
        turn.task = i ∧ ran = .passed ip ∧ w.limiter.cooldownSection ip turn.now = none) :
    Coherent config turn.now w' (log ++ [⟨turn, ran⟩]) where
  sameConfig := hconfig.trans h.sameConfig
  logged_le := h.logged_le_append hclock
  readings_le i task htask now hnow := by
    rcases htasks i task htask with hsame | ⟨hnew, _⟩
    · exact (h.readings_le i task hsame now hnow).trans hclock
    · exact hnew now hnow
  recorded e he ip hdetects hlate := by
    rcases List.mem_append.mp he with he | he
    · obtain ⟨state, hget, hle⟩ := h.recorded e he ip hdetects (hclock.trans_lt hlate)
      exact ⟨state, hrunning ip state hget (hlate.trans_le hle), hle⟩
    · rw [List.mem_singleton.mp he, hran ip] at hdetects
      cases hdetects
  passed i ip htask := by
    rcases htasks i _ htask with hsame | ⟨_, hnew⟩
    · obtain ⟨earlier, read, later, hlog, htask, hread, hstate⟩ := h.passed i ip hsame
      refine ⟨earlier, read, later ++ [⟨turn, ran⟩], by simp [hlog], htask, hread, ?_⟩
      intro state hget
      rcases hstate state (hold ip state hget) with hle | ⟨e, he, hdetects, heq⟩
      · exact .inl hle
      · exact .inr ⟨e, List.mem_append_left _ he, hdetects, heq⟩
    · obtain ⟨hi, rfl, hnone⟩ := hnew ip rfl
      refine ⟨log, ⟨turn, .passed ip⟩, [], rfl, hi, rfl, ?_⟩
      intro state hget
      refine .inl (not_lt.mp fun hlt => ?_)
      simp [RateLimiter.cooldownSection, hold ip state hget, hlt] at hnone

theorem Coherent.detect (h : Coherent config clock w log) (hclock : clock ≤ turn.now)
    {ip : IpAddr} {ran : Ran} (hran : ∀ a, (Entry.mk turn ran).detects a = decide (ip = a))
    (hconfig : w'.limiter.config = w.limiter.config)
    (hcooldowns : w'.limiter.cooldowns =
      w.limiter.cooldowns.set ip ⟨turn.now + config.cooldownDuration⟩)
    (htasks : ∀ (i : ℕ) (task : Task), w'.tasks[i]? = some task →
      w.tasks[i]? = some task ∨ task = .finished) :
    Coherent config turn.now w' (log ++ [⟨turn, ran⟩]) where
  sameConfig := hconfig.trans h.sameConfig
  logged_le := h.logged_le_append hclock
  readings_le i task htask now hnow := by
    rcases htasks i task htask with hsame | rfl
    · exact (h.readings_le i task hsame now hnow).trans hclock
    · simp [Task.reading] at hnow
  recorded e he a hdetects hlate := by
    have hle := h.logged_le_append hclock e he
    rw [hcooldowns, KeyedMap.get_set]
    by_cases ha : a = ip
    · exact ⟨_, if_pos ha, Nat.add_le_add_right hle _⟩
    · rw [if_neg ha]
      rcases List.mem_append.mp he with he | he
      · exact h.recorded e he a hdetects (hclock.trans_lt hlate)
      · rw [List.mem_singleton.mp he, hran a] at hdetects
        exact (ha (of_decide_eq_true hdetects).symm).elim
  passed i a htask := by
    rcases htasks i _ htask with hsame | hfinished
    · obtain ⟨earlier, read, later, hlog, htask, hread, hstate⟩ := h.passed i a hsame
      refine ⟨earlier, read, later ++ [⟨turn, ran⟩], by simp [hlog], htask, hread, ?_⟩
      intro state hget
      rw [hcooldowns, KeyedMap.get_set] at hget
      by_cases ha : a = ip
      · rw [if_pos ha] at hget
        obtain rfl := Option.some.inj hget
        exact .inr ⟨⟨turn, ran⟩, by simp, by simp [hran, ha], rfl⟩
      · rw [if_neg ha] at hget
        rcases hstate state hget with hle | ⟨e, he, hdetects, heq⟩
        · exact .inl hle
        · exact .inr ⟨e, List.mem_append_left _ he, hdetects, heq⟩
    · cases hfinished

theorem getElem?_goOn {w : World} {i j : ℕ} {next task : Task}
    (h : (w.goOn i next).tasks[j]? = some task) :
    w.tasks[j]? = some task ∨ task = next ∧ i = j := by
  rw [goOn] at h
  rw [List.getElem?_set] at h
  grind

/-- A turn that only forgets cooldowns which have run out. -/
theorem Coherent.goOn (h : Coherent config clock w log) (hclock : clock ≤ turn.now) {ran : Ran}
    {l : RateLimiter} {next : Task} (hran : ∀ ip, (Entry.mk turn ran).detects ip = false)
    (hconfig : l.config = w.limiter.config)
    (hold : ∀ ip state, l.cooldowns.get ip = some state → w.limiter.cooldowns.get ip = some state)
    (hrunning : ∀ ip state, w.limiter.cooldowns.get ip = some state →
      turn.now < state.cooldownUntil → l.cooldowns.get ip = some state)
    (hreading : ∀ now ∈ next.reading, now ≤ turn.now)
    (hlock : ∀ ip, next = .bucketLock ip →
      ran = .passed ip ∧ w.limiter.cooldownSection ip turn.now = none) :
    Coherent config turn.now (({ w with limiter := l } : World).goOn turn.task next)
      (log ++ [⟨turn, ran⟩]) := by
  apply h.quiet hclock hran hconfig hold hrunning
  intro i task htask
  rcases getElem?_goOn htask with hsame | ⟨rfl, hi⟩
  · exact .inl hsame
  · refine .inr ⟨hreading, ?_⟩
    intro ip heq
    obtain ⟨hpassed, hnone⟩ := hlock ip heq
    exact ⟨hi, hpassed, hnone⟩

/-- The same where the cooldown table is left alone. -/
theorem Coherent.goOn_same (h : Coherent config clock w log) (hclock : clock ≤ turn.now)
    {ran : Ran} {l : RateLimiter} {next : Task}
    (hran : ∀ ip, (Entry.mk turn ran).detects ip = false)
    (hconfig : l.config = w.limiter.config) (hcooldowns : l.cooldowns = w.limiter.cooldowns)
    (hreading : ∀ now ∈ next.reading, now ≤ turn.now)
    (hlock : ∀ ip, next = .bucketLock ip →
      ran = .passed ip ∧ w.limiter.cooldownSection ip turn.now = none) :
    Coherent config turn.now (({ w with limiter := l } : World).goOn turn.task next)
      (log ++ [⟨turn, ran⟩]) := by
  apply h.goOn hclock hran hconfig _ _ hreading hlock
  · intro ip state hget
    exact hcooldowns ▸ hget
  · intro ip state hget _
    exact hcooldowns.symm ▸ hget

theorem Coherent.bucketSection (h : Coherent config clock w log) (hclock : clock ≤ turn.now)
    (ip : IpAddr) :
    Coherent config turn.now
      (({ w with limiter := (w.limiter.bucketSection ip turn.now).1 } : World).goOn turn.task
        .finished)
      (log ++ [⟨turn, .decided ⟨.bucket ip, turn.now,
        (w.limiter.bucketSection ip turn.now).2⟩⟩]) := by
  have hran : ∀ a, (Entry.mk turn (.decided ⟨.bucket ip, turn.now,
      (w.limiter.bucketSection ip turn.now).2⟩)).detects a =
        (decide (ip = a) && decide (w.limiter.burstAt ip turn.now)) :=
    fun a => w.limiter.bucketSection_detects ip a turn.now
  by_cases hburst : w.limiter.burstAt ip turn.now
  · simp only [hburst, decide_true, Bool.and_true] at hran
    apply h.detect hclock hran
    · rw [RateLimiter.bucketSection_burst hburst]
      rfl
    · rw [RateLimiter.bucketSection_burst hburst, ← h.sameConfig]
      rfl
    · intro i task hnext
      rcases getElem?_goOn hnext with hsame | ⟨rfl, _⟩
      · exact .inl hsame
      · exact .inr rfl
  · apply h.goOn_same hclock (fun a => by simp [hran, hburst])
    · rw [RateLimiter.bucketSection_pay hburst]
    · rw [RateLimiter.bucketSection_pay hburst]
    · simp [Task.reading]
    · simp

/-- A cooldown that `cleanup` removes ran out before the reading of its task. -/
theorem Coherent.cleanCooldowns (h : Coherent config clock w log) (hclock : clock ≤ turn.now)
    {now : Instant} (hreading : now ≤ turn.now) :
    Coherent config turn.now
      (({ w with limiter := w.limiter.cleanCooldowns now } : World).goOn turn.task .finished)
      (log ++ [⟨turn, .silent⟩]) := by
  apply h.goOn (l := w.limiter.cleanCooldowns now) hclock (fun _ => rfl) rfl
  · intro ip state hget
    change (w.limiter.cooldowns.retain _).get ip = some state at hget
    rw [KeyedMap.get_retain, Option.filter_eq_some_iff] at hget
    exact hget.1
  · intro ip state hget hlate
    change (w.limiter.cooldowns.retain _).get ip = some state
    rw [KeyedMap.get_retain, Option.filter_eq_some_iff]
    exact ⟨hget, decide_eq_true (hreading.trans_lt hlate)⟩
  · simp [Task.reading]
  · simp

theorem Coherent.step (h : Coherent config clock w log) (hclock : clock ≤ turn.now) :
    Coherent config turn.now (w.step turn).1 (log ++ [(w.step turn).2]) := by
  have hreading : ∀ {task : Task} {now : Instant}, w.tasks[turn.task]? = some task →
      task.reading = some now → now ≤ turn.now := fun htask hnow =>
    (h.readings_le _ _ htask _ hnow).trans hclock
  have hskip : Coherent config turn.now w (log ++ [⟨turn, .silent⟩]) :=
    h.quiet hclock (fun _ => rfl) rfl (fun _ _ hget => hget) (fun _ _ hget _ => hget)
      fun _ _ htask => .inl htask
  rw [World.step]
  split
  · next ip htask =>
      split
      · next refusal hrefused =>
          exact h.goOn_same hclock (fun _ => rfl) rfl rfl (by simp [Task.reading]) (by simp)
      · next hnone =>
          apply h.goOn_same hclock (fun _ => rfl) rfl rfl
          · simp [Task.reading]
          · intro a heq
            obtain rfl := Task.bucketLock.inj heq
            exact ⟨rfl, hnone⟩
  · next ip htask => exact h.bucketSection hclock ip
  · exact h.goOn_same hclock (fun _ => rfl) rfl rfl (by simp [Task.reading]) (by simp)
  · next now htask =>
      have hle := hreading htask rfl
      exact h.goOn_same hclock (fun _ => rfl) rfl rfl (by simpa [Task.reading] using hle) (by simp)
  · next now htask =>
      have hle := hreading htask rfl
      exact h.goOn_same hclock (fun _ => rfl) rfl rfl (by simpa [Task.reading] using hle) (by simp)
  · next now htask => exact h.cleanCooldowns hclock (hreading htask rfl)
  · exact hskip
  · exact hskip

/-- In a coherent world a turn respects the running cooldowns exactly when a
call that was overtaken still finds too many timestamps or too few tokens. -/
theorem Coherent.holds_iff (h : Coherent config clock w log) (hclock : clock ≤ turn.now) :
    w.CooldownHolds turn ↔
      ∀ ip, w.tasks[turn.task]? = some (.bucketLock ip) → Overtaken config log turn ip →
        w.limiter.burstAt ip turn.now ∨
          ((w.limiter.ipBucket ip turn.now).refill turn.now).tokens < 1 := by
  constructor
  · rintro hholds ip htask ⟨earlier, read, later, rfl, _, _, e, he, hdetects, hlate⟩
    obtain ⟨state, hget, hle⟩ := h.recorded e (by simp [he]) ip hdetects (hclock.trans_lt hlate)
    have hrefused := hholds ip state htask hget (hlate.trans_le hle)
    by_contra hroom
    obtain ⟨hquiet, htoken⟩ := not_or.mp hroom
    have hallowed := (w.limiter.bucketSection_allowed_iff ip turn.now).mpr
      ⟨hquiet, not_lt.mp htoken⟩
    rw [hrefused] at hallowed
    cases hallowed
  · intro hroom ip state htask hget hlate
    obtain ⟨earlier, read, later, hlog, hread, hpassed, hstate⟩ := h.passed _ ip htask
    rcases hstate state hget with hexpired | ⟨e, he, hdetects, heq⟩
    · -- The cooldown that the read found expired cannot be running now.
      have hbefore : read.turn.now ≤ clock := h.logged_le read (by simp [hlog])
      exact absurd hlate (not_lt.mpr (hexpired.trans (hbefore.trans hclock)))
    · refine Bool.eq_false_iff.mpr fun hallowed => ?_
      obtain ⟨hquiet, htoken⟩ := (w.limiter.bucketSection_allowed_iff ip turn.now).mp hallowed
      rcases hroom ip htask ⟨earlier, read, later, hlog, hread, hpassed, e, he, hdetects,
        heq ▸ hlate⟩ with hburst | hshort
      · exact hquiet hburst
      · exact absurd hshort (not_lt.mpr htoken)

end World

def Forward (schedule : List Turn) : Prop := (schedule.map Turn.now).Pairwise (· ≤ ·)

instance (schedule : List Turn) : Decidable (Forward schedule) :=
  inferInstanceAs (Decidable (List.Pairwise _ _))

theorem Forward.coherent (config : RateLimitConfig) (jobs : List Job)
    {before after : List Turn} {turn : Turn} (h : Forward (before ++ turn :: after)) :
    ∃ clock ≤ turn.now, World.Coherent config clock
      (Machine.final World.step (World.start config jobs) before)
      (Machine.trace World.step (World.start config jobs) before) := by
  have hlegal := Machine.legal_of_pairwise Turn.now (fun _ _ => Nat.zero_le _) h
  obtain ⟨hbefore, hturn, _⟩ := (Machine.Legal.append_iff 0 before (turn :: after)).mp hlegal
  refine ⟨_, hturn, ?_⟩
  refine hbefore.invariant_trace (I := fun clock w log => World.Coherent config clock w log) ?_
    (World.coherent_start config jobs)
  intro clock w log turn hclock hw
  exact hw.step hclock

/-- Under every interleaving, no running cooldown is disregarded exactly when
every call that another one has overtaken still finds more timestamps than the
threshold, or less than a token. -/
theorem cooldown_holds_iff (config : RateLimitConfig) (jobs : List Job) {schedule : List Turn}
    (hschedule : Forward schedule) :
    (∀ before turn after, schedule = before ++ turn :: after →
      (Machine.final World.step (World.start config jobs) before).CooldownHolds turn) ↔
    ∀ before turn after, schedule = before ++ turn :: after →
      let w := Machine.final World.step (World.start config jobs) before
      let log := Machine.trace World.step (World.start config jobs) before
      ∀ ip, w.tasks[turn.task]? = some (.bucketLock ip) → World.Overtaken config log turn ip →
        w.limiter.burstAt ip turn.now ∨
          ((w.limiter.ipBucket ip turn.now).refill turn.now).tokens < 1 := by
  refine forall_congr' fun before => forall_congr' fun turn => forall_congr' fun after =>
    imp_congr_right fun hsplit => ?_
  subst hsplit
  obtain ⟨clock, hclock, hw⟩ := hschedule.coherent config jobs
  exact hw.holds_iff hclock

/-- Six calls of one address. Four are allowed at once. Nine seconds later the
last two pass the cooldown read together and one of them detects the burst. -/
def overtaking (ip : IpAddr) : List Job × List Turn :=
  (List.replicate 6 (.checkIp ip),
    [⟨0, 0⟩, ⟨0, 0⟩, ⟨1, 0⟩, ⟨1, 0⟩, ⟨2, 0⟩, ⟨2, 0⟩, ⟨3, 0⟩, ⟨3, 0⟩,
      ⟨4, fromSecs 9⟩, ⟨5, fromSecs 9⟩, ⟨4, fromSecs 9⟩])

def overtakenIp : IpAddr := .v4 192 0 2 1

/-- A threshold of three calls. -/
def overtakenConfig : RateLimitConfig :=
  { (default : RateLimitConfig) with maxRateRpm := 6, burstThresholdMultiplier := .finite 1 }

/-- Nothing in the entry is a refusal for a burst. -/
def Entry.quiet (e : Entry) : Bool :=
  match e.ran with
  | .decided d => !d.burstCooldown
  | _ => true

theorem Entry.detects_eq_false {e : Entry} (h : e.quiet = true) (ip : IpAddr) :
    e.detects ip = false := by
  unfold quiet at h
  unfold detects
  split
  · next d hran =>
      simp only [hran, Bool.not_eq_true'] at h
      rw [Decision.detectsBurst, h, Bool.and_false]
  · rfl

/-- The other one runs in the same second and is refused, as four timestamps are
still young. -/
theorem cooldown_holds_iff_overtaking :
    (Machine.final World.step (World.start overtakenConfig (overtaking overtakenIp).1)
      (overtaking overtakenIp).2).CooldownHolds ⟨5, fromSecs 9⟩ := by
  let turns := (overtaking overtakenIp).2
  have hforward : Forward (turns ++ [⟨5, fromSecs 9⟩]) := by decide
  refine (cooldown_holds_iff overtakenConfig (overtaking overtakenIp).1 hforward).mpr ?_
    turns ⟨5, fromSecs 9⟩ [] rfl
  rintro done turn after hsplit w log ip htask
    ⟨earlier, read, later, hlog, _, _, e, he, hdetects, _⟩
  obtain hdone | hdone : done.length ≤ 10 ∨ done.length = 11 := by
    have hlength := congrArg List.length hsplit
    simp only [turns, overtaking, List.length_append, List.length_cons, List.length_nil] at hlength
    omega
  · -- Up to the tenth turn no call has detected a burst.
    have hquiet : (Machine.trace World.step
        (World.start overtakenConfig (overtaking overtakenIp).1) (turns.take 10)).all
          Entry.quiet = true := by
      decide +kernel
    have htake : turns.take 10 = done ++ (turn :: after).take (10 - done.length) := by
      have hfirst : turns.take 10 = (turns ++ [Turn.mk 5 (fromSecs 9)]).take 10 := rfl
      rw [hfirst, hsplit, List.take_append, List.take_of_length_le hdone]
    have hmem : e ∈ Machine.trace World.step
        (World.start overtakenConfig (overtaking overtakenIp).1) (turns.take 10) := by
      rw [htake, Machine.trace_append]
      apply List.mem_append_left
      change e ∈ log
      rw [hlog]
      simp [he]
    rw [Entry.detects_eq_false (List.all_eq_true.mp hquiet e hmem) ip] at hdetects
    cases hdetects
  · obtain ⟨hturns, hlast⟩ := List.append_inj hsplit hdone.symm
    obtain ⟨rfl, _⟩ := List.cons.inj hlast
    subst hturns
    have hip : some (Task.bucketLock overtakenIp) = some (.bucketLock ip) :=
      Eq.trans (by decide +kernel) htask
    cases hip
    exact .inl (by decide +kernel)

/-- A second later the other one is allowed, with the cooldown running for 29
more seconds. -/
theorem cooldown_disregarded :
    ¬ ∀ (config : RateLimitConfig) (jobs : List Job) (schedule : List Turn), Forward schedule →
      ∀ before turn after, schedule = before ++ turn :: after →
        (Machine.final World.step (World.start config jobs) before).CooldownHolds turn := by
  intro hholds
  let ip := IpAddr.v4 192 0 2 1
  let config : RateLimitConfig :=
    { (default : RateLimitConfig) with maxRateRpm := 6, burstThresholdMultiplier := .finite 1 }
  have hrefused := hholds config (overtaking ip).1 ((overtaking ip).2 ++ [⟨5, fromSecs 10⟩])
    (by decide) (overtaking ip).2 ⟨5, fromSecs 10⟩ [] rfl ip ⟨fromSecs 39⟩ (by decide +kernel)
    (by decide +kernel) (by decide)
  have hallowed : (Decision.mk (.bucket ip) (fromSecs 10)
      ((Machine.final World.step (World.start config (overtaking ip).1)
        (overtaking ip).2).limiter.bucketSection ip (fromSecs 10)).2).allowed = true := by
    decide +kernel
  exact absurd hrefused (by rw [hallowed]; decide)

end CivicConnect.Webmention
