import CivicConnect.Webmention.Runs

/-!
# The limiter as a function of its decision history

The abstract limiter keeps nothing but the list of decisions made so far. It
has no buckets, no cooldown table and nothing to clean up: a verdict is
computed from the admissions of its own address or source key and from the
last burst of the address.
-/

namespace CivicConnect.Webmention

open Net

abbrev History := List Decision

def RateLimitConfig.burstThreshold (config : RateLimitConfig) : ℕ :=
  config.burstThresholdMultiplier.threshold (expectedInWindow config.maxRateRpm.toNat)

/-- The tokens that a bucket with these admissions holds at `t`. -/
def tokensAt (maxRate : UInt32) (admitted : List Instant) (t : Instant) : ℚ :=
  RateWindow.level (maxRate.toNat : ℚ) ((maxRate.toNat : ℚ) / 60) secs admitted t

namespace History

/-- The admission times at the selected stages, newest first. -/
def admitted (h : History) (p : Stage → Bool) : List Instant :=
  ((h.filter fun d => p d.stage && d.allowed).map Decision.now).reverse

def lastBurst (h : History) (a : IpAddr) : Option Instant :=
  ((h.filter (Decision.detectsBurst a)).map Decision.now).getLast?

def cooldownVerdict (config : RateLimitConfig) (h : History) (a : IpAddr) (t : Instant) :
    Option RateLimitResult :=
  match h.lastBurst a with
  | some burst =>
      if t < burst + config.cooldownDuration then
        some (.limited .burstCooldown (durationSince (burst + config.cooldownDuration) t))
      else none
  | none => none

def payVerdict (config : RateLimitConfig) (maxRate : UInt32) (reason : RateLimitReason)
    (admitted : List Instant) (t : Instant) : Outcome :=
  let tokens := tokensAt maxRate admitted t
  if 1 ≤ tokens then .ok (.allowed (min ⌊tokens - 1⌋₊ u32Max) config.windowDuration)
  else (fromSecsF64 (divF64 (1 - tokens) ((maxRate.toNat : ℚ) / 60))).map (.limited reason)

def bucketVerdict (config : RateLimitConfig) (h : History) (a : IpAddr) (t : Instant) :
    Outcome :=
  if config.burstThreshold < (h.admitted (Stage.isIp a)).countP (isRecent t) then
    .ok (.limited .burstCooldown config.cooldownDuration)
  else payVerdict config config.maxRateRpm .ipRateExceeded (h.admitted (Stage.isIp a)) t

def ipVerdict (config : RateLimitConfig) (h : History) (a : IpAddr) (t : Instant) : Decision :=
  match cooldownVerdict config h a t with
  | some refusal => ⟨.cooldown a, t, .ok refusal⟩
  | none => ⟨.bucket a, t, bucketVerdict config h a t⟩

def sourceVerdict (config : RateLimitConfig) (h : History) (k : String) (t : Instant) :
    Decision :=
  ⟨.source k, t, payVerdict config config.maxRatePerSource .sourceRateExceeded
    (h.admitted (Stage.isSource k)) t⟩

def eventDecisions (env : Platform) (config : RateLimitConfig) (h : History) (e : Event) :
    List Decision :=
  match e.call with
  | .checkIp ip => [ipVerdict config h ip e.now]
  | .checkSource sourceUrl => [sourceVerdict config h (env.normalizeSourceUrl sourceUrl) e.now]
  | .check ip sourceUrl =>
      let first := ipVerdict config h ip e.now
      match first.allowed, sourceUrl with
      | true, some source =>
          [first, sourceVerdict config (h ++ [first]) (env.normalizeSourceUrl source) e.now]
      | _, _ => [first]
  | .cleanup => []

def step (env : Platform) (config : RateLimitConfig) (h : History) (e : Event) :
    History × Reply :=
  let ds := eventDecisions env config h e
  (h ++ ds, ⟨ds, combine ds⟩)

/-- Every decision is the verdict on the decisions before it, and the clock
does not run backwards. -/
inductive Sound (config : RateLimitConfig) : History → Prop
  | nil : Sound config []
  | ip {h : History} (a : IpAddr) (t : Instant) (hs : Sound config h)
      (ht : ∀ d ∈ h, d.now ≤ t) : Sound config (h ++ [ipVerdict config h a t])
  | source {h : History} (k : String) (t : Instant) (hs : Sound config h)
      (ht : ∀ d ∈ h, d.now ≤ t) : Sound config (h ++ [sourceVerdict config h k t])

variable {config : RateLimitConfig}

@[simp] theorem ipVerdict_now (h : History) (a : IpAddr) (t : Instant) :
    (ipVerdict config h a t).now = t := by
  rw [ipVerdict]
  cases cooldownVerdict config h a t <;> rfl

@[simp] theorem ipVerdict_isIp (h : History) (a b : IpAddr) (t : Instant) :
    (ipVerdict config h a t).stage.isIp b = decide (a = b) := by
  rw [ipVerdict]
  cases cooldownVerdict config h a t <;> rfl

@[simp] theorem ipVerdict_isSource (h : History) (a : IpAddr) (k : String) (t : Instant) :
    (ipVerdict config h a t).stage.isSource k = false := by
  rw [ipVerdict]
  cases cooldownVerdict config h a t <;> rfl

@[simp] theorem sourceVerdict_now (h : History) (k : String) (t : Instant) :
    (sourceVerdict config h k t).now = t := rfl

@[simp] theorem sourceVerdict_isIp (h : History) (k : String) (a : IpAddr) (t : Instant) :
    (sourceVerdict config h k t).stage.isIp a = false := rfl

@[simp] theorem sourceVerdict_isSource (h : History) (k k' : String) (t : Instant) :
    (sourceVerdict config h k t).stage.isSource k' = decide (k = k') := rfl

theorem cooldownVerdict_eq_some {h : History} {a : IpAddr} {t : Instant}
    {refusal : RateLimitResult} (hcool : cooldownVerdict config h a t = some refusal) :
    ∃ burst, h.lastBurst a = some burst ∧ t < burst + config.cooldownDuration ∧
      refusal = .limited .burstCooldown (durationSince (burst + config.cooldownDuration) t) := by
  rw [cooldownVerdict] at hcool
  cases hlast : h.lastBurst a with
  | none => simp [hlast] at hcool
  | some burst =>
      by_cases hrunning : t < burst + config.cooldownDuration
      · exact ⟨burst, rfl, hrunning, by simpa [hlast, hrunning] using hcool.symm⟩
      · simp [hlast, hrunning] at hcool

theorem payVerdict_allowed_iff {maxRate : UInt32} {reason : RateLimitReason}
    {admitted : List Instant} {t : Instant} {stage : Stage} :
    (Decision.mk stage t (payVerdict config maxRate reason admitted t)).allowed = true ↔
      1 ≤ tokensAt maxRate admitted t := by
  by_cases hone : 1 ≤ tokensAt maxRate admitted t
  · simp [Decision.allowed, payVerdict, hone]
  · simp only [Decision.allowed, payVerdict, hone, if_false]
    cases fromSecsF64 (divF64 (1 - tokensAt maxRate admitted t) ((maxRate.toNat : ℚ) / 60)) <;>
      simp [Except.map]

theorem payVerdict_not_burst {maxRate : UInt32} {reason : RateLimitReason}
    (hreason : reason ≠ .burstCooldown) {admitted : List Instant} {t : Instant} {stage : Stage} :
    (Decision.mk stage t
      (payVerdict config maxRate reason admitted t)).burstCooldown = false := by
  by_cases hone : 1 ≤ tokensAt maxRate admitted t
  · simp [Decision.burstCooldown, payVerdict, hone]
  · simp only [Decision.burstCooldown, payVerdict, hone, if_false]
    cases fromSecsF64 (divF64 (1 - tokensAt maxRate admitted t) ((maxRate.toNat : ℚ) / 60)) with
    | error p => rfl
    | ok d => cases reason <;> simp_all [Except.map]

@[simp] theorem admitted_nil (p : Stage → Bool) : admitted [] p = [] := rfl

theorem admitted_append (h : History) (d : Decision) (p : Stage → Bool) :
    admitted (h ++ [d]) p =
      if p d.stage && d.allowed then d.now :: h.admitted p else h.admitted p := by
  by_cases hp : p d.stage && d.allowed
  · simp [admitted, List.filter_append, hp]
  · simp [admitted, List.filter_append, hp]

theorem admitted_other (h : History) (d : Decision) {p : Stage → Bool}
    (hp : p d.stage = false) : admitted (h ++ [d]) p = h.admitted p := by
  simp [admitted_append, hp]

theorem admitted_pay (h : History) {p : Stage → Bool} {stage : Stage} (hp : p stage = true)
    (maxRate : UInt32) (reason : RateLimitReason) (as : List Instant) (t : Instant) :
    admitted (h ++ [⟨stage, t, payVerdict config maxRate reason as t⟩]) p =
      if 1 ≤ tokensAt maxRate as t then t :: h.admitted p else h.admitted p := by
  rw [admitted_append]
  simp only [hp, Bool.true_and, payVerdict_allowed_iff]

@[simp] theorem lastBurst_nil (a : IpAddr) : lastBurst [] a = none := rfl

theorem lastBurst_append (h : History) (d : Decision) (a : IpAddr) :
    lastBurst (h ++ [d]) a = if d.detectsBurst a then some d.now else h.lastBurst a := by
  by_cases hd : d.detectsBurst a
  · simp [lastBurst, List.filter_append, hd]
  · simp [lastBurst, List.filter_append, hd]

theorem lastBurst_other (h : History) {d : Decision} {a : IpAddr}
    (hd : d.detectsBurst a = false) : lastBurst (h ++ [d]) a = h.lastBurst a := by
  simp [lastBurst_append, hd]

theorem Sound.pairwise {h : History} (hs : Sound config h) :
    (h.map Decision.now).Pairwise (· ≤ ·) := by
  have hsnoc : ∀ (h : History) (d : Decision), (h.map Decision.now).Pairwise (· ≤ ·) →
      (∀ d' ∈ h, d'.now ≤ d.now) → ((h ++ [d]).map Decision.now).Pairwise (· ≤ ·) := by
    intro h d hpair hle
    rw [List.map_append, List.pairwise_append]
    refine ⟨hpair, List.pairwise_singleton _ _, ?_⟩
    intro x hx y hy
    obtain ⟨d', hd', rfl⟩ := List.mem_map.mp hx
    rw [List.map_singleton, List.mem_singleton] at hy
    exact hy ▸ hle d' hd'
  induction hs with
  | nil => exact List.Pairwise.nil
  | ip a t _ ht ih => exact hsnoc _ _ ih (by simpa using ht)
  | source k t _ ht ih => exact hsnoc _ _ ih ht

theorem Sound.sorted {h : History} (hs : Sound config h) (p : Stage → Bool) :
    (h.admitted p).Pairwise (· ≥ ·) :=
  List.pairwise_reverse.mpr (hs.pairwise.sublist (List.filter_sublist.map Decision.now))

theorem Sound.upto {h : History} (hs : Sound config h) (p : Stage → Bool) {t : Instant}
    (ht : ∀ d ∈ h, d.now ≤ t) : RateWindow.Upto t (h.admitted p) := by
  refine List.pairwise_cons.mpr ⟨?_, hs.sorted p⟩
  intro s hmem
  obtain ⟨d, hd, rfl⟩ := List.mem_map.mp (List.mem_reverse.mp hmem)
  exact ht d (List.mem_of_mem_filter hd)

theorem snoc_eq_split {h pre post : History} {x d : Decision}
    (heq : h ++ [x] = pre ++ d :: post) :
    (h = pre ∧ x = d) ∨ ∃ post', h = pre ++ d :: post' := by
  rcases List.eq_nil_or_concat post with rfl | ⟨post', y, rfl⟩
  · obtain ⟨hpre, hx⟩ := List.append_inj' heq rfl
    exact .inl ⟨hpre, List.cons.inj hx |>.1⟩
  · rw [List.concat_eq_append, ← List.cons_append, ← List.append_assoc] at heq
    exact .inr ⟨post', (List.append_inj' heq rfl).1⟩

/-- Each decision of a sound history is the verdict on what precedes it. -/
theorem Sound.split {h pre post : History} {d : Decision} (hs : Sound config h)
    (heq : h = pre ++ d :: post) :
    Sound config pre ∧ (∀ d' ∈ pre, d'.now ≤ d.now) ∧
      ((∃ a, d = ipVerdict config pre a d.now) ∨ ∃ k, d = sourceVerdict config pre k d.now) := by
  induction hs generalizing post with
  | nil => simp at heq
  | ip a t hs ht ih =>
      rcases snoc_eq_split heq with ⟨rfl, rfl⟩ | ⟨post', hpost⟩
      · exact ⟨hs, by simpa using ht, .inl ⟨a, by simp⟩⟩
      · exact ih hpost
  | source k t hs ht ih =>
      rcases snoc_eq_split heq with ⟨rfl, rfl⟩ | ⟨post', hpost⟩
      · exact ⟨hs, ht, .inr ⟨k, rfl⟩⟩
      · exact ih hpost

theorem final_eq (env : Platform) (config : RateLimitConfig) (h : History)
    (events : List Event) :
    Machine.final (step env config) h events =
      h ++ (Machine.trace (step env config) h events).flatMap Reply.decisions := by
  induction events generalizing h with
  | nil => simp
  | cons e events ih => simp [ih, step]

theorem Sound.event (env : Platform) {h : History} {e : Event} (hs : Sound config h)
    (ht : ∀ d ∈ h, d.now ≤ e.now) :
    Sound config (h ++ eventDecisions env config h e) ∧
      ∀ d ∈ h ++ eventDecisions env config h e, d.now ≤ e.now := by
  obtain ⟨now, call⟩ := e
  cases call with
  | checkIp ip => exact ⟨hs.ip ip now ht, by simpa [eventDecisions, or_imp, forall_and] using ht⟩
  | checkSource sourceUrl =>
      exact ⟨hs.source _ now ht,
        by simpa [eventDecisions, or_imp, forall_and, sourceVerdict] using ht⟩
  | check ip sourceUrl =>
      have hfirst : Sound config (h ++ [ipVerdict config h ip now]) := hs.ip ip now ht
      have hle : ∀ d ∈ h ++ [ipVerdict config h ip now], d.now ≤ now := by
        simpa [or_imp, forall_and] using ht
      rw [eventDecisions]
      dsimp only
      split
      · next source _ =>
          rw [List.append_cons]
          refine ⟨hfirst.source _ now hle, ?_⟩
          simpa [or_imp, forall_and, sourceVerdict] using hle
      · exact ⟨hfirst, hle⟩
  | cleanup => exact ⟨by simpa [eventDecisions] using hs, by simpa [eventDecisions] using ht⟩

/-- A run on a clock that does not run backwards writes a sound history. -/
theorem sound_final (env : Platform) (config : RateLimitConfig) {events : List Event}
    (hevents : Nondecreasing events) :
    Sound config (Machine.final (step env config) [] events) :=
  (hevents.legal.invariant
    (I := fun clock h => Sound config h ∧ ∀ d ∈ h, d.now ≤ clock)
    (fun _ _ _ hclock hs => hs.1.event env fun d hd => (hs.2 d hd).trans hclock)
    ⟨.nil, by simp⟩).1

end History

end CivicConnect.Webmention
