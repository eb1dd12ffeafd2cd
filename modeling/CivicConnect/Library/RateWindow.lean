import Mathlib.Algebra.Order.Field.Basic
import Mathlib.Order.Bounds.Basic
import Mathlib.Data.List.Pairwise
import Mathlib.Tactic.Linarith
import Mathlib.Tactic.Ring

/-!
# Token buckets and windows of the admission history

A bucket holds at most `cap` tokens, refills at `rate` per unit of elapsed
time and pays one token for each admission. Replaying the admissions gives
the level of a bucket that is refilled lazily. The level is the least slack
that the limit `cap + rate * length` leaves over all windows ending now, so
the bucket can pay exactly when no window would be overfull.
-/

namespace RateWindow

variable {T K : Type*} [LinearOrder T] [Field K] [LinearOrder K] [IsStrictOrderedRing K]

/-- The level just before `t`, replaying the admissions, the newest first. -/
def level (cap rate : K) (sec : T → K) : List T → T → K
  | [], _ => cap
  | a :: as, t => min (level cap rate sec as a - 1 + rate * (sec t - sec a)) cap

def since (as : List T) (s : T) : ℕ := as.countP fun a => s ≤ a

def slack (cap rate : K) (sec : T → K) (as : List T) (s t : T) : K :=
  cap + rate * (sec t - sec s) - since as s

/-- Admissions are recorded newest first and none lies after `t`. -/
def Upto (t : T) (as : List T) : Prop := (t :: as).Pairwise (· ≥ ·)

variable {cap rate : K} {sec : T → K}

@[simp] theorem since_nil (s : T) : since ([] : List T) s = 0 := rfl

theorem since_cons (a : T) (as : List T) (s : T) :
    since (a :: as) s = since as s + if s ≤ a then 1 else 0 := by
  simp [since, List.countP_cons]

theorem Upto.nil (t : T) : Upto t ([] : List T) := List.pairwise_singleton _ t

theorem upto_cons {t a : T} {as : List T} : Upto t (a :: as) ↔ a ≤ t ∧ Upto a as := by
  constructor
  · intro h
    obtain ⟨hle, htail⟩ := List.pairwise_cons.mp h
    exact ⟨hle a List.mem_cons_self, htail⟩
  · rintro ⟨hat, has⟩
    refine List.pairwise_cons.mpr ⟨fun b hb => ?_, has⟩
    rcases List.mem_cons.mp hb with rfl | hb
    · exact hat
    · exact le_trans ((List.pairwise_cons.mp has).1 b hb) hat

theorem Upto.mono {t t' : T} {as : List T} (h : Upto t as) (htt : t ≤ t') : Upto t' as := by
  obtain ⟨hle, has⟩ := List.pairwise_cons.mp h
  exact List.pairwise_cons.mpr ⟨fun a ha => le_trans (hle a ha) htt, has⟩

theorem Upto.le {t a : T} {as : List T} (h : Upto t as) (ha : a ∈ as) : a ≤ t :=
  (List.pairwise_cons.mp h).1 a ha

theorem since_eq_zero {t s : T} {as : List T} (h : Upto t as) (hs : t < s) : since as s = 0 := by
  refine List.countP_eq_zero.mpr fun a ha => ?_
  simpa using lt_of_le_of_lt (h.le ha) hs

omit [LinearOrder T] [IsStrictOrderedRing K] in
theorem level_le_cap (as : List T) (t : T) : level cap rate sec as t ≤ cap := by
  cases as with
  | nil => exact le_rfl
  | cons a as => exact min_le_right _ _

theorem level_advance (hrate : 0 ≤ rate) (hsec : Monotone sec) {as : List T} {t t' : T}
    (htt : t ≤ t') :
    min (level cap rate sec as t + rate * (sec t' - sec t)) cap = level cap rate sec as t' := by
  have hgain : 0 ≤ rate * (sec t' - sec t) := mul_nonneg hrate (sub_nonneg.mpr (hsec htt))
  cases as with
  | nil => exact min_eq_right (le_add_of_nonneg_right hgain)
  | cons a as =>
      simp only [level]
      rw [← min_add_add_right, min_assoc, min_eq_right (le_add_of_nonneg_right hgain)]
      congr 1
      ring

omit [LinearOrder K] [IsStrictOrderedRing K] in
theorem slack_cons_of_le {a s t : T} (as : List T) (hsa : s ≤ a) :
    slack cap rate sec (a :: as) s t =
      slack cap rate sec as s a - 1 + rate * (sec t - sec a) := by
  simp only [slack, since_cons, if_pos hsa, Nat.cast_add, Nat.cast_one]
  ring

omit [LinearOrder K] [IsStrictOrderedRing K] in
theorem slack_cons_of_lt {a s t : T} {as : List T} (h : Upto a as) (has : a < s) :
    slack cap rate sec (a :: as) s t = cap + rate * (sec t - sec s) := by
  simp [slack, since_cons, since_eq_zero h has, not_le.mpr has]

/-- The level is the least slack over all windows ending now. -/
theorem level_isLeast (hrate : 0 ≤ rate) (hsec : Monotone sec) {as : List T} {t : T}
    (h : Upto t as) :
    IsLeast {x | ∃ s ≤ t, x = slack cap rate sec as s t} (level cap rate sec as t) := by
  induction as generalizing t with
  | nil =>
      refine ⟨⟨t, le_rfl, by simp [slack, level]⟩, ?_⟩
      rintro _ ⟨s, hs, rfl⟩
      simpa [slack, level] using mul_nonneg hrate (sub_nonneg.mpr (hsec hs))
  | cons a as ih =>
      obtain ⟨hat, hup⟩ := upto_cons.mp h
      obtain ⟨⟨s₀, hs₀, hleast⟩, hlower⟩ := ih hup
      constructor
      · rcases lt_or_ge cap (level cap rate sec as a - 1 + rate * (sec t - sec a)) with hc | hc
        · -- A full bucket has been idle, and the empty window ending now is tight.
          have hlt : a < t := by
            refine lt_of_le_of_ne hat fun heq => ?_
            have hcap : level cap rate sec as a ≤ cap := level_le_cap as a
            rw [heq, sub_self, mul_zero] at hc
            rw [heq] at hcap
            linarith
          exact ⟨t, le_rfl, by simp [level, min_eq_right hc.le, slack_cons_of_lt hup hlt]⟩
        · exact ⟨s₀, hs₀.trans hat, by rw [slack_cons_of_le as hs₀, ← hleast, level,
            min_eq_left hc]⟩
      · rintro _ ⟨s, hs, rfl⟩
        rcases le_or_gt s a with hsa | has
        · have hbound : level cap rate sec as a ≤ slack cap rate sec as s a :=
            hlower ⟨s, hsa, rfl⟩
          rw [slack_cons_of_le as hsa]
          exact (min_le_left _ _).trans (by linarith)
        · have hgain : 0 ≤ rate * (sec t - sec s) := mul_nonneg hrate (sub_nonneg.mpr (hsec hs))
          rw [slack_cons_of_lt hup has]
          exact (min_le_right _ _).trans (by linarith)

/-- One more admission is payable exactly when it overfills no window. -/
theorem one_le_level_iff (hrate : 0 ≤ rate) (hsec : Monotone sec) {as : List T} {t : T}
    (h : Upto t as) :
    1 ≤ level cap rate sec as t ↔
      ∀ s ≤ t, (since as s : K) + 1 ≤ cap + rate * (sec t - sec s) := by
  have hleast : IsLeast {x | ∃ s ≤ t, x = slack cap rate sec as s t}
      (level cap rate sec as t) := level_isLeast hrate hsec h
  constructor
  · intro hone s hs
    have hle : level cap rate sec as t ≤ slack cap rate sec as s t := hleast.2 ⟨s, hs, rfl⟩
    have hroom : 1 ≤ slack cap rate sec as s t := hone.trans hle
    rw [slack] at hroom
    linarith
  · intro hall
    obtain ⟨s, hs, heq⟩ := hleast.1
    rw [heq, slack]
    linarith [hall s hs]

inductive Paid (cap rate : K) (sec : T → K) : List T → Prop
  | nil : Paid cap rate sec []
  | cons {a : T} {as : List T} (hpay : 1 ≤ level cap rate sec as a)
      (has : Paid cap rate sec as) : Paid cap rate sec (a :: as)

/-- No window of paid admissions, wherever it ends, is overfull. -/
theorem Paid.window (hrate : 0 ≤ rate) (hsec : Monotone sec) (hcap : 0 ≤ cap) {as : List T}
    (hpaid : Paid cap rate sec as) (hsorted : as.Pairwise (· ≥ ·)) {s t : T} (hst : s ≤ t) :
    ((as.countP fun a => s ≤ a ∧ a ≤ t : ℕ) : K) ≤ cap + rate * (sec t - sec s) := by
  induction hpaid with
  | nil =>
      have hgain : 0 ≤ rate * (sec t - sec s) := mul_nonneg hrate (sub_nonneg.mpr (hsec hst))
      simpa using add_nonneg hcap hgain
  | @cons a as hpay _ ih =>
      have hup : Upto a as := hsorted
      by_cases hin : s ≤ a ∧ a ≤ t
      · have hcount : (as.countP fun b => s ≤ b ∧ b ≤ t) ≤ since as s :=
          List.countP_mono_left fun b _ hb => by simp_all
        have hroom := (one_le_level_iff hrate hsec hup).mp hpay s hin.1
        have hgain : rate * (sec a - sec s) ≤ rate * (sec t - sec s) :=
          mul_le_mul_of_nonneg_left (sub_le_sub_right (hsec hin.2) _) hrate
        have hcast : ((as.countP fun b => s ≤ b ∧ b ≤ t : ℕ) : K) ≤ (since as s : K) :=
          Nat.cast_le.mpr hcount
        rw [List.countP_cons_of_pos (by simpa using hin)]
        push_cast
        linarith
      · rw [List.countP_cons_of_neg (by simpa using hin)]
        exact ih hsorted.of_cons

end RateWindow
