import CivicConnect.Library.Searching
import Mathlib.Data.Fin.VecNotation
import Mathlib.Data.List.FinRange

/-!
# The levels

A level is granted in two searches from above: first for the highest threshold
that the experience points reach, then for the highest level below whose other
requirements are met.
-/

namespace CivicConnect.AdaCore

/-- `Level_Number`, with the range 0 to 5. -/
abbrev LevelNumber := Fin 6

/-- `Experience_Points`, with the range 0 to 1_000_000. -/
abbrev ExperiencePoints := Fin 1000001

/-- What a check of the language raises. -/
inductive AdaException where
  | constraintError
  deriving DecidableEq, Repr

def levelThresholds : LevelNumber → ExperiencePoints :=
  ![0, 100, 500, 1500, 4000, 10000]

structure LevelRequirements where
  minEventsAttended : ℕ
  minEventsOrganized : ℕ
  minEndorsements : ℕ
  minMenteesTrained : ℕ
  deriving DecidableEq, Repr

def requirements : LevelNumber → LevelRequirements :=
  ![⟨0, 0, 0, 0⟩, ⟨1, 0, 0, 0⟩, ⟨3, 0, 1, 0⟩, ⟨5, 2, 3, 0⟩, ⟨10, 5, 5, 3⟩, ⟨20, 10, 10, 5⟩]

def meetsRequirements (targetLevel : LevelNumber)
    (eventsAttended eventsOrganized endorsements menteesTrained : ℕ) : Bool :=
  let req := requirements targetLevel
  eventsAttended ≥ req.minEventsAttended && eventsOrganized ≥ req.minEventsOrganized &&
    endorsements ≥ req.minEndorsements && menteesTrained ≥ req.minMenteesTrained

/-- The assignment of `level - 1`, which has to be a level. -/
def decrement (level : LevelNumber) : Except AdaException LevelNumber :=
  if 1 ≤ level.val then .ok ⟨level.val - 1, by omega⟩ else .error .constraintError

theorem decrement_lt {level lower : LevelNumber} (h : decrement level = .ok lower) :
    lower < level := by
  unfold decrement at h
  split at h
  · obtain rfl := Except.ok.inj h
    rw [Fin.lt_def]
    dsimp only
    omega
  · simp at h

/-- The second loop, which goes down until the requirements are met. -/
def lowerUntil (meets : LevelNumber → Bool) (potentialLevel : LevelNumber) :
    Except AdaException LevelNumber :=
  if potentialLevel > 0 then
    if meets potentialLevel then .ok potentialLevel
    else
      match _h : decrement potentialLevel with
      | .error e => .error e
      | .ok lower => lowerUntil meets lower
  else .ok potentialLevel
termination_by potentialLevel
decreasing_by exact decrement_lt ‹_›

def calculateLevel (xp : ExperiencePoints)
    (eventsAttended eventsOrganized endorsements menteesTrained : ℕ) :
    Except AdaException LevelNumber :=
  let potentialLevel :=
    ((List.finRange 6).reverse.find? fun level => xp ≥ levelThresholds level).getD 0
  lowerUntil
    (fun level =>
      meetsRequirements level eventsAttended eventsOrganized endorsements menteesTrained)
    potentialLevel

structure FeatureSet where
  canMessage : Bool
  canCreateEvents : Bool
  canMentor : Bool
  canCoordinate : Bool
  hasAnalytics : Bool
  deriving DecidableEq, Repr

def getFeatures : LevelNumber → FeatureSet
  | 0 => ⟨false, false, false, false, false⟩
  | 1 => ⟨true, false, false, false, false⟩
  | 2 => ⟨true, true, false, false, false⟩
  | 3 => ⟨true, true, true, false, false⟩
  | 4 => ⟨true, true, true, true, false⟩
  | 5 => ⟨true, true, true, true, true⟩

/-- Every flag of one set is set in the other. -/
def FeatureSet.Within (f g : FeatureSet) : Prop :=
  f.canMessage ≤ g.canMessage ∧ f.canCreateEvents ≤ g.canCreateEvents ∧
    f.canMentor ≤ g.canMentor ∧ f.canCoordinate ≤ g.canCoordinate ∧
    f.hasAnalytics ≤ g.hasAnalytics

instance (f g : FeatureSet) : Decidable (f.Within g) :=
  inferInstanceAs (Decidable (_ ∧ _))

theorem getFeatures_within {level level' : LevelNumber} (h : level ≤ level') :
    (getFeatures level).Within (getFeatures level') := by
  revert level level'
  decide

theorem decrement_of_pos {level : LevelNumber} (h : 0 < level) :
    ∃ lower, decrement level = .ok lower ∧ lower.val + 1 = level.val := by
  have hpos : 1 ≤ level.val := h
  refine ⟨⟨level.val - 1, by omega⟩, if_pos hpos, ?_⟩
  dsimp only
  omega

theorem lowerUntil_of_not_meets {meets : LevelNumber → Bool} {level lower : LevelNumber}
    (hpos : 0 < level) (hmeets : meets level = false) (h : decrement level = .ok lower) :
    lowerUntil meets level = lowerUntil meets lower := by
  rw [lowerUntil, if_pos hpos, if_neg (by simp [hmeets])]
  split
  · next herror => simp [h] at herror
  · next hok =>
      obtain rfl := Except.ok.inj (h.symm.trans hok)
      rfl

/-- Where level 0 has no requirements the loop ends, without a failed check, at
the greatest level from which it need not go down. -/
theorem lowerUntil_isGreatest (meets : LevelNumber → Bool) (hzero : meets 0 = true)
    (level : LevelNumber) :
    ∃ granted, lowerUntil meets level = .ok granted ∧
      IsGreatest (Set.Iic level ∩ {l | meets l = true}) granted := by
  induction level using WellFoundedLT.induction with
  | ind level ih =>
    by_cases hpos : 0 < level
    · cases hmeets : meets level with
      | true =>
          refine ⟨level, ?_, ⟨le_refl level, hmeets⟩, fun _ hl => hl.1⟩
          rw [lowerUntil, if_pos hpos, if_pos hmeets]
      | false =>
          obtain ⟨lower, hdecrement, hlower⟩ := decrement_of_pos hpos
          obtain ⟨granted, hloop, ⟨hle, hgranted⟩, hbound⟩ := ih lower (decrement_lt hdecrement)
          refine ⟨granted, ?_, ⟨hle.trans (decrement_lt hdecrement).le, hgranted⟩, ?_⟩
          · rw [lowerUntil_of_not_meets hpos hmeets hdecrement]
            exact hloop
          · rintro l ⟨hl, hmet⟩
            apply hbound
            refine ⟨?_, hmet⟩
            -- The level itself is not met, so that a level that is met lies below it.
            have hne : l ≠ level := fun heq => by simp [heq ▸ hmeets] at hmet
            have hlt := Fin.lt_def.mp (lt_of_le_of_ne hl hne)
            apply Fin.le_def.mpr
            omega
    · obtain rfl : level = 0 := Fin.le_zero_iff.mp (not_lt.mp hpos)
      refine ⟨0, ?_, ⟨le_refl 0, hzero⟩, fun _ hl => hl.1⟩
      rw [lowerUntil, if_neg hpos]

theorem levelThresholds_mono : Monotone levelThresholds := by
  intro level level' h
  revert level level'
  decide

theorem isLowerSet_reached (xp : ExperiencePoints) :
    IsLowerSet {level | levelThresholds level ≤ xp} :=
  fun _ _ hle hreached => (levelThresholds_mono hle).trans hreached

/-- The first loop finds the highest level with a threshold that is reached. -/
theorem potentialLevel_isGreatest (xp : ExperiencePoints) :
    IsGreatest {level | levelThresholds level ≤ xp}
      (((List.finRange 6).reverse.find? fun level => xp ≥ levelThresholds level).getD 0) := by
  have hdecreasing : (List.finRange 6).reverse.Pairwise (· > ·) := by decide
  cases hfind : (List.finRange 6).reverse.find? fun level => xp ≥ levelThresholds level with
  | none =>
      have hzero := List.find?_eq_none.mp hfind 0 (by decide)
      simp [levelThresholds] at hzero
  | some level =>
      obtain ⟨⟨_, hreached⟩, hbound⟩ := Searching.isGreatest_of_find? hdecreasing hfind
      refine ⟨of_decide_eq_true hreached, ?_⟩
      intro l hl
      exact hbound ⟨List.mem_reverse.mpr (List.mem_finRange l), decide_eq_true hl⟩

section Earned

variable {xp xp' : ExperiencePoints} {attended attended' organized organized' endorsed endorsed'
  trained trained' : ℕ}

/-- The levels that the points and the counts suffice for. -/
def earned (xp : ExperiencePoints) (attended organized endorsed trained : ℕ) :
    Set LevelNumber :=
  {level | levelThresholds level ≤ xp ∧
    meetsRequirements level attended organized endorsed trained = true}

theorem meetsRequirements_iff {level : LevelNumber} :
    meetsRequirements level attended organized endorsed trained = true ↔
      (requirements level).minEventsAttended ≤ attended ∧
        (requirements level).minEventsOrganized ≤ organized ∧
        (requirements level).minEndorsements ≤ endorsed ∧
        (requirements level).minMenteesTrained ≤ trained := by
  simp [meetsRequirements, and_assoc]

theorem earned_mono (hxp : xp ≤ xp') (hattended : attended ≤ attended')
    (horganized : organized ≤ organized') (hendorsed : endorsed ≤ endorsed')
    (htrained : trained ≤ trained') :
    earned xp attended organized endorsed trained ⊆
      earned xp' attended' organized' endorsed' trained' := by
  rintro level ⟨hreached, hmeets⟩
  refine ⟨hreached.trans hxp, meetsRequirements_iff.mpr ?_⟩
  obtain ⟨ha, ho, he, ht⟩ := meetsRequirements_iff.mp hmeets
  exact ⟨ha.trans hattended, ho.trans horganized, he.trans hendorsed, ht.trans htrained⟩

theorem calculateLevel_isGreatest (xp : ExperiencePoints)
    (attended organized endorsed trained : ℕ) :
    ∃ level, calculateLevel xp attended organized endorsed trained = .ok level ∧
      IsGreatest (earned xp attended organized endorsed trained) level := by
  have hzero : meetsRequirements 0 attended organized endorsed trained = true :=
    meetsRequirements_iff.mpr ⟨Nat.zero_le _, Nat.zero_le _, Nat.zero_le _, Nat.zero_le _⟩
  obtain ⟨level, hlevel, hgreatest⟩ := lowerUntil_isGreatest
    (fun l => meetsRequirements l attended organized endorsed trained) hzero _
  exact ⟨level, hlevel, Searching.isGreatest_inter (isLowerSet_reached xp)
    (potentialLevel_isGreatest xp) hgreatest⟩

/-- The greatest level that is earned is granted, without a failed check, and
gaining points or counts loses neither the level nor a feature. -/
theorem calculateLevel_earned (xp : ExperiencePoints)
    (attended organized endorsed trained : ℕ) :
    ∃ level, calculateLevel xp attended organized endorsed trained = .ok level ∧
      IsGreatest {l | levelThresholds l ≤ xp ∧
        meetsRequirements l attended organized endorsed trained = true} level ∧
      ∀ xp' attended' organized' endorsed' trained', xp ≤ xp' → attended ≤ attended' →
        organized ≤ organized' → endorsed ≤ endorsed' → trained ≤ trained' →
        ∃ level', calculateLevel xp' attended' organized' endorsed' trained' = .ok level' ∧
          level ≤ level' ∧ (getFeatures level).Within (getFeatures level') := by
  obtain ⟨level, hlevel, hgreatest⟩ :=
    calculateLevel_isGreatest xp attended organized endorsed trained
  refine ⟨level, hlevel, hgreatest, ?_⟩
  intro xp' attended' organized' endorsed' trained' hxp hattended horganized hendorsed htrained
  obtain ⟨level', hlevel', hgreatest'⟩ :=
    calculateLevel_isGreatest xp' attended' organized' endorsed' trained'
  have hle : level ≤ level' := hgreatest.mono hgreatest'
    (earned_mono hxp hattended horganized hendorsed htrained)
  exact ⟨level', hlevel', hle, getFeatures_within hle⟩

theorem calculateLevel_earned_sample :
    ∃ level, calculateLevel 1600 5 2 3 0 = .ok level ∧
      ∃ level', calculateLevel 4000 10 5 5 3 = .ok level' ∧ level ≤ level' := by
  obtain ⟨level, hlevel, _, hgain⟩ := calculateLevel_earned 1600 5 2 3 0
  obtain ⟨level', hlevel', hle, _⟩ := hgain 4000 10 5 5 3 (by decide) (by decide) (by decide)
    (by decide) (by decide)
  exact ⟨level, hlevel, level', hlevel', hle⟩

end Earned

end CivicConnect.AdaCore
