import CivicConnect.Webmention.Refinement

/-!
# The rate limit is exact

A request is admitted exactly when no window of the history ending at it
would be overfull. Hence no window of a run, wherever it ends, holds more
than the burst and the refill allow.
-/

namespace CivicConnect.Webmention

open Net

namespace History

variable {config : RateLimitConfig}

/-- The number of selected decisions made from `s` to `t`, both included. -/
def within (h : History) (p : Decision → Bool) (s t : Instant) : ℕ :=
  h.countP fun d => p d && decide (s ≤ d.now ∧ d.now ≤ t)

def budget (maxRate : UInt32) (s t : Instant) : ℚ :=
  (maxRate.toNat : ℚ) + (maxRate.toNat : ℚ) / 60 * (secs t - secs s)

theorem countP_admitted (h : History) (p : Stage → Bool) (q : Instant → Bool) :
    (h.admitted p).countP q = h.countP fun d => (p d.stage && d.allowed) && q d.now := by
  rw [admitted, List.countP_reverse, List.countP_map, List.countP_filter]
  simp [Bool.and_comm]

theorem since_admitted {h : History} {t : Instant} (ht : ∀ d ∈ h, d.now ≤ t) (p : Stage → Bool)
    (s : Instant) :
    RateWindow.since (h.admitted p) s = h.within (fun d => p d.stage && d.allowed) s t := by
  rw [RateWindow.since, countP_admitted, within]
  refine List.countP_congr fun d hd => ?_
  simp [ht d hd]

/-- A bucket holds a token where no window of the history would be overfull. -/
theorem Sound.one_le_tokensAt_iff {h : History} (hs : Sound config h) {t : Instant}
    (ht : ∀ d ∈ h, d.now ≤ t) (p : Stage → Bool) (maxRate : UInt32) :
    1 ≤ tokensAt maxRate (h.admitted p) t ↔ ∀ s ≤ t,
      (h.within (fun d => p d.stage && d.allowed) s t : ℚ) + 1 ≤ budget maxRate s t := by
  simp only [← since_admitted ht]
  exact RateWindow.one_le_level_iff (rate_nonneg maxRate) secs_mono (hs.upto p ht)

/-- An address that is not refused for a burst is allowed exactly when its
bucket holds a token. -/
theorem ipVerdict_allowed_iff {h : History} {a : IpAddr} {t : Instant}
    (hquiet : (ipVerdict config h a t).burstCooldown = false) :
    (ipVerdict config h a t).allowed = true ↔
      1 ≤ tokensAt config.maxRateRpm (h.admitted (Stage.isIp a)) t := by
  unfold ipVerdict at hquiet ⊢
  cases hcool : cooldownVerdict config h a t with
  | some refusal =>
      obtain ⟨_, _, _, rfl⟩ := cooldownVerdict_eq_some hcool
      simp [hcool, Decision.burstCooldown] at hquiet
  | none =>
      simp only [hcool, bucketVerdict] at hquiet ⊢
      split at hquiet
      · simp [Decision.burstCooldown] at hquiet
      · next hunder => simp only [hunder, if_false, payVerdict_allowed_iff]

theorem sourceVerdict_allowed_iff {h : History} {k : String} {t : Instant} :
    (sourceVerdict config h k t).allowed = true ↔
      1 ≤ tokensAt config.maxRatePerSource (h.admitted (Stage.isSource k)) t :=
  payVerdict_allowed_iff

end History

theorem Decision.burstCooldown_of_allowed {d : Decision} (h : d.allowed = true) :
    d.burstCooldown = false := by
  rw [Decision.allowed] at h
  rw [Decision.burstCooldown]
  split at h <;> simp_all

namespace History

variable {config : RateLimitConfig} {h : History}

theorem Sound.paid_ip (hs : Sound config h) (a : IpAddr) :
    RateWindow.Paid (config.maxRateRpm.toNat : ℚ) ((config.maxRateRpm.toNat : ℚ) / 60) secs
      (h.admitted (Stage.isIp a)) := by
  induction hs with
  | nil => exact .nil
  | @ip h b t _ _ ih =>
      rw [admitted_append]
      split
      · next hadm =>
          obtain ⟨hstage, hallowed⟩ := Bool.and_eq_true_iff.mp hadm
          obtain rfl : b = a := by simpa using hstage
          rw [ipVerdict_now]
          exact .cons ((ipVerdict_allowed_iff
            (Decision.burstCooldown_of_allowed hallowed)).mp hallowed) ih
      · exact ih
  | source k t _ _ ih =>
      rw [admitted_other _ _ rfl]
      exact ih

theorem Sound.within_le {p : Stage → Bool} {maxRate : UInt32} (hs : Sound config h)
    (hpaid : RateWindow.Paid (maxRate.toNat : ℚ) ((maxRate.toNat : ℚ) / 60) secs (h.admitted p))
    {s t : Instant} (hst : s ≤ t) :
    (h.within (fun d => p d.stage && d.allowed) s t : ℚ) ≤ budget maxRate s t := by
  have hwindow := hpaid.window (rate_nonneg maxRate) secs_mono (Nat.cast_nonneg _)
    (hs.sorted p) hst
  rw [countP_admitted] at hwindow
  exact hwindow

end History

variable {config : RateLimitConfig} {events : List Event}

theorem ip_window_le (env : Platform) (hevents : Nondecreasing events) (a : IpAddr)
    {s t : Instant} (hst : s ≤ t) :
    (History.within (RateLimiter.decisions env config events) (Decision.allowedIp a) s t : ℚ) ≤
      History.budget config.maxRateRpm s t :=
  have hs := decisions_sound env config hevents
  hs.within_le (hs.paid_ip a) hst

/-- A request is allowed exactly when no window ending at it would be
overfull, for addresses that are not in a burst and for source keys. -/
theorem allowed_iff_no_window_overfull (env : Platform) (config : RateLimitConfig)
    {events : List Event} (hevents : Nondecreasing events) {pre post : History} {d : Decision}
    (hrun : RateLimiter.decisions env config events = pre ++ d :: post) :
    (∀ a, d.stage.isIp a = true → d.burstCooldown = false →
      (d.allowed = true ↔ ∀ s ≤ d.now,
        (pre.within (Decision.allowedIp a) s d.now : ℚ) + 1 ≤
          (config.maxRateRpm.toNat : ℚ) +
            (config.maxRateRpm.toNat : ℚ) / 60 * (secs d.now - secs s))) ∧
    (∀ k, d.stage.isSource k = true →
      (d.allowed = true ↔ ∀ s ≤ d.now,
        (pre.within (Decision.allowedSource k) s d.now : ℚ) + 1 ≤
          (config.maxRatePerSource.toNat : ℚ) +
            (config.maxRatePerSource.toNat : ℚ) / 60 * (secs d.now - secs s))) := by
  obtain ⟨hpre, hle, hverdict⟩ := (decisions_sound env config hevents).split hrun
  constructor
  · intro a hstage hquiet
    rcases hverdict with ⟨b, hd⟩ | ⟨k, hd⟩
    · obtain rfl : b = a := by
        rw [hd] at hstage
        simpa using hstage
      rw [hd] at hquiet
      have hiff := (History.ipVerdict_allowed_iff hquiet).trans
        (hpre.one_le_tokensAt_iff hle (Stage.isIp b) config.maxRateRpm)
      rwa [← hd] at hiff
    · rw [hd] at hstage
      cases hstage
  · intro k hstage
    rcases hverdict with ⟨a, hd⟩ | ⟨k', hd⟩
    · rw [hd, History.ipVerdict_isSource] at hstage
      cases hstage
    · obtain rfl : k' = k := by
        rw [hd] at hstage
        simpa [History.sourceVerdict, Stage.isSource] using hstage
      have htoken : (History.sourceVerdict config pre k' d.now).allowed = true ↔
          1 ≤ tokensAt config.maxRatePerSource (pre.admitted (Stage.isSource k')) d.now :=
        History.sourceVerdict_allowed_iff
      have hiff := htoken.trans
        (hpre.one_le_tokensAt_iff hle (Stage.isSource k') config.maxRatePerSource)
      rwa [← hd] at hiff

theorem allowed_iff_no_window_overfull_third :
    let ip := IpAddr.v4 192 0 2 1
    let pre : History := [⟨.bucket ip, 0, .ok (.allowed 1 (fromSecs 60))⟩,
      ⟨.bucket ip, 0, .ok (.allowed 0 (fromSecs 60))⟩]
    ¬ ∀ s ≤ (fromSecs 15 : Instant),
      (pre.within (Decision.allowedIp ip) s (fromSecs 15) : ℚ) + 1 ≤
        ((2 : UInt32).toNat : ℚ) +
          ((2 : UInt32).toNat : ℚ) / 60 * (secs (fromSecs 15) - secs s) := by
  intro ip pre hroom
  let config : RateLimitConfig := { (default : RateLimitConfig) with maxRateRpm := 2 }
  let events : List Event := [⟨0, .checkIp ip⟩, ⟨0, .checkIp ip⟩, ⟨fromSecs 15, .checkIp ip⟩]
  let refused : Decision :=
    ⟨.bucket ip, fromSecs 15, .ok (.limited .ipRateExceeded (fromSecs 15))⟩
  have hevents : Nondecreasing events := by decide
  have hrun : RateLimiter.decisions default config events = pre ++ refused :: [] := by
    decide +kernel
  have hiff := (allowed_iff_no_window_overfull default config hevents hrun).1 ip rfl rfl
  exact absurd (hiff.mpr hroom) (by decide)

end CivicConnect.Webmention
