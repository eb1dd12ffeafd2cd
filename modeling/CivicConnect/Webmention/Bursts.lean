import CivicConnect.Webmention.Thresholds
import CivicConnect.Webmention.Windows

/-!
# Burst detection is exact

The detector compares the retained timestamps of a bucket with a threshold
that the float cast saturates. On every run the comparison is the one of the
requests allowed in the last ten seconds with the threshold before the cast,
since the rate limit keeps their number far below the point of saturation.
-/

namespace CivicConnect.Webmention

open Net

namespace History

variable {config : RateLimitConfig} {h : History}

/-- The number of requests of `a` that were allowed in the ten seconds up to
`t`, the moment ten seconds ago excluded. -/
def lately (h : History) (a : IpAddr) (t : Instant) : ℕ :=
  h.countP fun d => d.allowedIp a && decide (t < d.now + fromSecs 10 ∧ d.now ≤ t)

theorem isRecent_iff_lt {s t : Instant} : isRecent t s = true ↔ t < s + fromSecs 10 := by
  rw [isRecent_iff, durationSince]
  rw [fromSecs, nanosPerSec]
  lia

theorem countP_recent_eq {t : Instant} (ht : ∀ d ∈ h, d.now ≤ t) (a : IpAddr) :
    (h.admitted (Stage.isIp a)).countP (isRecent t) = h.lately a t := by
  rw [countP_admitted, lately]
  refine List.countP_congr fun d hd => ?_
  simp [Decision.allowedIp, isRecent_iff_lt, ht d hd]

/-- The rate limit keeps the recent requests below the point of saturation. -/
theorem Sound.lately_le (hs : Sound config h) (a : IpAddr) (t : Instant) :
    h.lately a t ≤ usizeMax := by
  have hcount : h.lately a t ≤
      h.within (fun d => d.stage.isIp a && d.allowed) (t - fromSecs 10) t := by
    refine List.countP_mono_left fun d _ hd => ?_
    simp only [Decision.allowedIp, Bool.and_eq_true, decide_eq_true_eq] at hd ⊢
    exact ⟨hd.1, Nat.sub_le_of_le_add hd.2.1.le, hd.2.2⟩
  have hwindow := hs.within_le (hs.paid_ip a) (Nat.sub_le t (fromSecs 10))
  have hten : secs t - secs (t - fromSecs 10) ≤ 10 := by
    have hback : secs t ≤ secs (t - fromSecs 10 + fromSecs 10) := secs_mono le_tsub_add
    rw [secs_add, asSecsF64_fromSecs] at hback
    push_cast at hback
    linarith
  have hrate : (config.maxRateRpm.toNat : ℚ) ≤ 2 ^ 32 := by
    exact_mod_cast config.maxRateRpm.toNat_lt.le
  have hgain := mul_le_mul_of_nonneg_left hten (rate_nonneg config.maxRateRpm)
  have hbound : (h.lately a t : ℚ) ≤ (usizeMax : ℚ) := by
    have hcast : (h.lately a t : ℚ) ≤ (h.within (fun d => d.stage.isIp a && d.allowed)
        (t - fromSecs 10) t : ℚ) := Nat.cast_le.mpr hcount
    have hmax : (2 : ℚ) ^ 33 ≤ (usizeMax : ℚ) := by norm_num [usizeMax]
    rw [budget] at hwindow
    linarith
  exact_mod_cast hbound

theorem burstThreshold_lt_iff {n : ℕ} (hn : n ≤ usizeMax) :
    config.burstThreshold < n ↔ config.burstLimit < (n : ℕ∞) := by
  unfold RateLimitConfig.burstThreshold RateLimitConfig.burstLimit F32.threshold
  cases config.burstThresholdMultiplier with
  | finite q =>
      dsimp only
      rw [Nat.cast_lt, min_lt_iff, or_iff_left (not_lt.mpr hn)]
  | inf => simpa using hn
  | negInf => exact (Nat.cast_lt (α := ℕ∞)).symm
  | nan => exact (Nat.cast_lt (α := ℕ∞)).symm

/-- A cooldown is running exactly when some burst lies within its length,
since the last burst is the latest. -/
theorem Sound.cooldown_running_iff (hs : Sound config h) (a : IpAddr) (t : Instant) :
    (∃ refusal, cooldownVerdict config h a t = some refusal) ↔
      ∃ d ∈ h, d.detectsBurst a = true ∧ t < d.now + config.cooldownDuration := by
  constructor
  · rintro ⟨refusal, hcool⟩
    obtain ⟨burst, hlast, hrunning, _⟩ := cooldownVerdict_eq_some hcool
    obtain ⟨d, hd, rfl⟩ := List.mem_map.mp (List.mem_of_getLast? hlast)
    obtain ⟨hmem, hburst⟩ := List.mem_filter.mp hd
    exact ⟨d, hmem, hburst, hrunning⟩
  · rintro ⟨d, hmem, hburst, hrunning⟩
    have hd : d.now ∈ (h.filter (Decision.detectsBurst a)).map Decision.now :=
      List.mem_map_of_mem (List.mem_filter.mpr ⟨hmem, hburst⟩)
    have hsorted : ((h.filter (Decision.detectsBurst a)).map Decision.now).Pairwise (· ≤ ·) :=
      hs.pairwise.sublist (List.filter_sublist.map Decision.now)
    have hlast : h.lastBurst a = some _ := List.getLast?_eq_some_getLast (List.ne_nil_of_mem hd)
    have hlate := hrunning.trans_le (Nat.add_le_add_right (hsorted.rel_getLast hd) _)
    exact ⟨_, by rw [cooldownVerdict, hlast]; exact if_pos hlate⟩

theorem Sound.ipVerdict_burst_iff (hs : Sound config h) (a : IpAddr) {t : Instant}
    (ht : ∀ d ∈ h, d.now ≤ t) :
    (ipVerdict config h a t).burstCooldown = true ↔
      (∃ d ∈ h, d.detectsBurst a = true ∧ t < d.now + config.cooldownDuration) ∨
        config.burstLimit < (h.lately a t : ℕ∞) := by
  rw [← hs.cooldown_running_iff, ← burstThreshold_lt_iff (hs.lately_le a t),
    ← countP_recent_eq ht]
  rw [ipVerdict]
  cases hcool : cooldownVerdict config h a t with
  | some refusal =>
      obtain ⟨_, _, _, rfl⟩ := cooldownVerdict_eq_some hcool
      simp [Decision.burstCooldown]
  | none =>
      by_cases hover : config.burstThreshold <
          (h.admitted (Stage.isIp a)).countP (isRecent t)
      · simp [bucketVerdict, hover, Decision.burstCooldown]
      · have hquiet : (Decision.mk (.bucket a) t (payVerdict config config.maxRateRpm
            .ipRateExceeded (h.admitted (Stage.isIp a)) t)).burstCooldown = false :=
          payVerdict_not_burst (by decide)
        simp [bucketVerdict, hover, hquiet]

/-- Times that all lie within ten seconds of each other see at most one
request more than the threshold: the last one was let through by the
detector, which saw all the others. -/
theorem Sound.window_le (hs : Sound config h) (a : IpAddr) {p : Instant → Bool}
    (hp : ∀ s t, p s = true → p t = true → t < s + fromSecs 10) :
    ((h.countP fun d => d.allowedIp a && p d.now : ℕ) : ℕ∞) ≤ config.burstLimit + 1 := by
  induction hs with
  | nil => simp
  | @ip h b t hs ht ih =>
      rw [List.countP_append]
      by_cases hnew : ((ipVerdict config h b t).allowedIp a && p t) = true
      · simp only [Decision.allowedIp, ipVerdict_isIp, Bool.and_eq_true,
          decide_eq_true_eq] at hnew
        obtain ⟨⟨rfl, hallowed⟩, hpt⟩ := hnew
        have hquiet := Decision.burstCooldown_of_allowed hallowed
        have hunder : (h.lately b t : ℕ∞) ≤ config.burstLimit := by
          refine not_lt.mp fun hover => ?_
          have hburst := (hs.ipVerdict_burst_iff b ht).mpr (.inr hover)
          rw [hquiet] at hburst
          cases hburst
        have hcount : (h.countP fun d => d.allowedIp b && p d.now) ≤ h.lately b t := by
          refine List.countP_mono_left fun d hd hin => ?_
          obtain ⟨hip, hpd⟩ := Bool.and_eq_true_iff.mp hin
          simp [hip, hp d.now t hpd hpt, ht d hd]
        have hone : [ipVerdict config h b t].countP (fun d => d.allowedIp b && p d.now) = 1 := by
          simp [Decision.allowedIp, hallowed, hpt]
        rw [hone, Nat.cast_add, Nat.cast_one]
        exact add_le_add_left ((Nat.cast_le.mpr hcount).trans hunder) 1
      · have hzero : [ipVerdict config h b t].countP (fun d => d.allowedIp a && p d.now) = 0 := by
          simpa using hnew
        rw [hzero, Nat.add_zero]
        exact ih
  | source k t _ _ ih =>
      rw [List.countP_append]
      simpa [Decision.allowedIp] using ih

end History

/-- A request is refused for a burst exactly while a cooldown is running or
right after too many requests were allowed, and so no half-open window of ten
seconds sees more than one request over the threshold. -/
theorem burst_refusal_iff (env : Platform) (config : RateLimitConfig) {events : List Event}
    (hevents : Nondecreasing events) (a : IpAddr) :
    (∀ pre d post, RateLimiter.decisions env config events = pre ++ d :: post →
      d.stage.isIp a = true →
        (d.burstCooldown = true ↔
          (∃ e ∈ pre, e.detectsBurst a = true ∧ d.now < e.now + config.cooldownDuration) ∨
            config.burstLimit < (History.lately pre a d.now : ℕ∞))) ∧
      (∀ t, (History.lately (RateLimiter.decisions env config events) a t : ℕ∞) ≤
        config.burstLimit + 1) ∧
      ∀ s, (((RateLimiter.decisions env config events).countP fun d =>
        d.allowedIp a && decide (s ≤ d.now ∧ d.now < s + fromSecs 10) : ℕ) : ℕ∞) ≤
          config.burstLimit + 1 := by
  have hs := decisions_sound env config hevents
  refine ⟨?_, fun t => ?_, fun s => ?_⟩
  · intro pre d post hrun hstage
    obtain ⟨hpre, hle, ⟨b, hd⟩ | ⟨k, hd⟩⟩ := hs.split hrun
    · obtain rfl : b = a := by
        rw [hd] at hstage
        simpa using hstage
      have hiff := hpre.ipVerdict_burst_iff b hle
      rwa [← hd] at hiff
    · rw [hd] at hstage
      cases hstage
  · apply hs.window_le a (p := fun u => decide (t < u + fromSecs 10 ∧ u ≤ t))
    intro u u' hin hin'
    exact (of_decide_eq_true hin').2.trans_lt (of_decide_eq_true hin).1
  · apply hs.window_le a (p := fun u => decide (s ≤ u ∧ u < s + fromSecs 10))
    intro u u' hin hin'
    exact (of_decide_eq_true hin').2.trans_le
      (Nat.add_le_add_right (of_decide_eq_true hin).1 _)

theorem burst_refusal_iff_fifth :
    let ip := IpAddr.v4 192 0 2 1
    let config : RateLimitConfig :=
      { (default : RateLimitConfig) with maxRateRpm := 6, burstThresholdMultiplier := .finite 1 }
    let allowed (remaining : ℕ) : Decision :=
      ⟨.bucket ip, 0, .ok (.allowed remaining (fromSecs 60))⟩
    config.burstLimit < (History.lately [allowed 5, allowed 4, allowed 3, allowed 2] ip
      (fromSecs 1) : ℕ∞) := by
  intro ip config allowed
  let pre : History := [allowed 5, allowed 4, allowed 3, allowed 2]
  let refused : Decision := ⟨.bucket ip, fromSecs 1, .ok (.limited .burstCooldown (fromSecs 30))⟩
  let events : List Event := List.replicate 4 ⟨0, .checkIp ip⟩ ++ [⟨fromSecs 1, .checkIp ip⟩]
  have hevents : Nondecreasing events := by decide
  have hrun : RateLimiter.decisions default config events = pre ++ refused :: [] := by
    decide +kernel
  have hiff := (burst_refusal_iff default config hevents ip).1 pre refused [] hrun (by decide)
  have hnone : ¬ ∃ e ∈ pre, e.detectsBurst ip = true ∧
      refused.now < e.now + config.cooldownDuration := by decide
  exact (hiff.mp rfl).resolve_left hnone

def manyChecks : List Event := List.replicate 118 ⟨0, .checkIp (.v4 192 0 2 1)⟩

/-- Of 118 checks in one instant the last one is refused, after as many allowed
ones as the formula permits. -/
theorem rounded_threshold_refuses :
    ¬ ∀ (env : Platform) (config : RateLimitConfig) (events : List Event), Nondecreasing events →
      ∀ (a : IpAddr) (pre : History) (d : Decision) (post : History),
        RateLimiter.decisions env config events = pre ++ d :: post → d.stage.isIp a = true →
          (d.burstCooldown = true ↔
            (∃ e ∈ pre, e.detectsBurst a = true ∧ d.now < e.now + config.cooldownDuration) ∨
              config.burstFormula < (History.lately pre a d.now : ℕ∞)) := by
  intro hlaw
  let a := IpAddr.v4 192 0 2 1
  let run := RateLimiter.decisions default roundedConfig manyChecks
  have hlast : (run.drop 117).map (fun d => (d.stage.isIp a, d.burstCooldown, d.now)) =
      [(true, true, 0)] := by
    decide +kernel
  have hquiet : ∀ e ∈ run.take 117, e.detectsBurst a = false := by decide +kernel
  have hlately : History.lately (run.take 117) a 0 ≤ 117 :=
    List.countP_le_length.trans (List.length_take_le _ _)
  obtain ⟨d, hdrop, hd⟩ := List.map_eq_singleton_iff.mp hlast
  simp only [Prod.mk.injEq] at hd
  obtain ⟨hstage, hrefused, hnow⟩ := hd
  have hsplit : run = run.take 117 ++ d :: [] := by rw [← hdrop, List.take_append_drop]
  have hcause := (hlaw default roundedConfig manyChecks (by decide) a _ d [] hsplit hstage).mp
    hrefused
  rw [hnow, burstFormula_roundedConfig] at hcause
  rcases hcause with ⟨e, he, hburst, _⟩ | hover
  · rw [hquiet e he] at hburst
    cases hburst
  · exact absurd (Nat.cast_lt.mp hover) (not_lt.mpr hlately)

end CivicConnect.Webmention
