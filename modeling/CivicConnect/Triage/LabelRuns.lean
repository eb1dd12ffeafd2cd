import CivicConnect.Library.KeyedMap
import CivicConnect.Library.Machine
import CivicConnect.Triage.LabelClassifier

/-!
# Runs of the triage workflow

The workflow reads the title of an issue, later its labels, and edits the issue
last; people and other runs may come between these steps. A run that finds an
issue with two labels in a tier of one did not bring this about by itself.
-/

namespace CivicConnect.Triage

/-- A run of the workflow between its steps: with the title that it has read, or
with the labels that it has read and those that it will add. -/
inductive Stage where
  | titled (title : String)
  | planned (seen adds : List String)
  deriving DecidableEq, Repr

structure Tracker where
  title : String
  labels : List String
  runs : KeyedMap ℕ Stage

/-- The read of the title may fail, which ends the run; a failed read of the
labels counts as an issue without labels, and a failed edit changes nothing. -/
inductive Step where
  | retitle (title : String)
  | label (added removed : List String)
  | readTitle (run : ℕ) (fails : Bool)
  | classify (run : ℕ) (defined : List String) (fails : Bool)
  | edit (run : ℕ) (fails : Bool)
  deriving DecidableEq, Repr

/-- The labels after some are added; one that is there already stays as it is. -/
def addLabels (labels adds : List String) : List String :=
  labels ++ adds.filter (· ∉ labels)

namespace Tracker

variable (folding : CaseFolding) (rules : Rules)

def opened (title : String) : Tracker := ⟨title, [], ∅⟩

def step (s : Tracker) : Step → Tracker × Unit
  | .retitle title => ({ s with title := title }, ())
  | .label added removed =>
      ({ s with labels := addLabels (s.labels.filter (· ∉ removed)) added }, ())
  | .readTitle run fails =>
      if fails then ({ s with runs := s.runs.remove run }, ())
      else ({ s with runs := s.runs.set run (.titled s.title) }, ())
  | .classify run defined fails =>
      match s.runs.get run with
      | some (.titled title) =>
          let seen := if fails then [] else s.labels
          match plan folding rules defined title seen with
          | [] => ({ s with runs := s.runs.remove run }, ())
          | adds => ({ s with runs := s.runs.set run (.planned seen adds) }, ())
      | _ => (s, ())
  | .edit run fails =>
      match s.runs.get run with
      | some (.planned _ adds) =>
          ({ s with
            labels := if fails then s.labels else addLabels s.labels adds
            runs := s.runs.remove run }, ())
      | _ => (s, ())

/-- No tier of one label has two. -/
def Tidy (labels : List String) : Prop :=
  ∀ a ∈ labels, ∀ b ∈ labels, rules.tier a = rules.tier b →
    rules.maxOf (rules.tier a) = some 1 → a = b

/-- People leave the labels tidy, and an edit finds none, among those that its run
did not see, in a tier that it fills. -/
def InOrder (s : Tracker) : Step → Prop
  | .label added removed => Tidy rules (addLabels (s.labels.filter (· ∉ removed)) added)
  | .edit run false =>
      ∀ seen adds, s.runs.get run = some (.planned seen adds) →
        ∀ new ∈ adds, ∀ old ∈ s.labels, old ∉ seen → rules.tier old = rules.tier new →
          rules.maxOf (rules.tier new) = some 1 → old = new
  | _ => True

/-- What a run will add goes back to a classification of the labels that it saw. -/
def Sourced (s : Tracker) : Prop :=
  ∀ run seen adds, s.runs.get run = some (.planned seen adds) →
    ∃ title, ∀ label ∈ adds, label ∈ Triage.classify folding rules title seen

end Tracker

section

variable {folding : CaseFolding} {rules : Rules} {title : String} {seen : List String}
  {new old : String}

/-- The classifier stays out of a tier of one label that is taken. -/
theorem tier_free_of_classify (hrules : rules.WellFormed)
    (hnew : new ∈ classify folding rules title seen) (hold : old ∈ seen)
    (hmax : rules.maxOf (rules.tier new) = some 1) : rules.tier old ≠ rules.tier new := by
  obtain ⟨_, hsuggested⟩ := mem_classify_iff.mp hnew
  obtain ⟨_, _, hfree⟩ := (mem_suggestions_iff hrules).mp hsuggested
  rcases hfree with hnone | ⟨hothers, _⟩
  · cases hmax.symm.trans hnone
  · by_cases hempty : old = ""
    · subst hempty
      -- The empty label is outside of the taxonomy.
      have hlookup : rules.tierOf.lookup "" = none := by
        rw [List.lookup_eq_none_iff]
        intro entry hentry
        have hcanonical := List.any_eq_false.mp hrules.canonical_nonempty entry hentry
        exact bne_iff_ne.mpr fun heq => hcanonical (decide_eq_true heq.symm)
      intro htier
      rw [← htier, Rules.tier, hlookup] at hmax
      cases hmax.symm.trans hrules.unknown_unlimited
    · exact hothers old (mem_present_iff.mpr ⟨hold, hempty⟩)

/-- It never suggests two labels for a tier of one. -/
theorem eq_of_classify (hrules : rules.WellFormed) (hnew : new ∈ classify folding rules title seen)
    (hold : old ∈ classify folding rules title seen) (htier : rules.tier old = rules.tier new)
    (hmax : rules.maxOf (rules.tier new) = some 1) : old = new := by
  obtain ⟨_, hsuggestedNew⟩ := mem_classify_iff.mp hnew
  obtain ⟨_, hsuggestedOld⟩ := mem_classify_iff.mp hold
  obtain ⟨hcandidateNew, _, hfreeNew⟩ := (mem_suggestions_iff hrules).mp hsuggestedNew
  obtain ⟨hcandidateOld, _, hfreeOld⟩ := (mem_suggestions_iff hrules).mp hsuggestedOld
  rcases hfreeNew with hnone | ⟨_, hleastNew⟩
  · cases hmax.symm.trans hnone
  rcases hfreeOld with hnone | ⟨_, hleastOld⟩
  · rw [htier] at hnone
    cases hmax.symm.trans hnone
  · exact rules.order_ranked.antisymm old new (hleastOld new hcandidateNew htier.symm)
      (hleastNew old hcandidateOld htier)

end

theorem mem_addLabels {label : String} {labels adds : List String} :
    label ∈ addLabels labels adds ↔ label ∈ labels ∨ label ∈ adds := by
  rw [addLabels, List.mem_append, List.mem_filter, decide_eq_true_iff]
  constructor
  · exact Or.imp id And.left
  · rintro (hlabel | hadds)
    · exact Or.inl hlabel
    · by_cases hlabel : label ∈ labels
      · exact Or.inl hlabel
      · exact Or.inr ⟨hadds, hlabel⟩

namespace Tracker

variable {folding : CaseFolding} {rules : Rules} {s : Tracker}

theorem sourced_opened (title : String) : (opened title).Sourced folding rules := by
  intro run seen adds h
  cases h

/-- An edit keeps the labels tidy exactly when nothing that its run did not see is
in its way. -/
theorem tidy_addLabels_iff (hrules : rules.WellFormed) {title : String}
    {labels seen adds : List String}
    (hadds : ∀ label ∈ adds, label ∈ Triage.classify folding rules title seen)
    (htidy : Tidy rules labels) : Tidy rules (addLabels labels adds) ↔
      ∀ new ∈ adds, ∀ old ∈ labels, old ∉ seen → rules.tier old = rules.tier new →
        rules.maxOf (rules.tier new) = some 1 → old = new := by
  constructor
  · intro h new hnew old hold _ htier hmax
    exact h old (mem_addLabels.mpr (Or.inl hold)) new (mem_addLabels.mpr (Or.inr hnew)) htier
      (htier ▸ hmax)
  · intro h
    have hcross : ∀ new ∈ adds, ∀ old ∈ labels, rules.tier old = rules.tier new →
        rules.maxOf (rules.tier new) = some 1 → old = new := by
      intro new hnew old hold htier hmax
      by_cases hseen : old ∈ seen
      · exact absurd htier (tier_free_of_classify hrules (hadds new hnew) hseen hmax)
      · exact h new hnew old hold hseen htier hmax
    intro a ha b hb htier hmax
    rcases mem_addLabels.mp ha with ha | ha
    · rcases mem_addLabels.mp hb with hb | hb
      · exact htidy a ha b hb htier hmax
      · exact hcross b hb a ha htier (htier ▸ hmax)
    · rcases mem_addLabels.mp hb with hb | hb
      · exact (hcross a ha b hb htier.symm hmax).symm
      · exact eq_of_classify hrules (hadds b hb) (hadds a ha) htier (htier ▸ hmax)

theorem sourced_step (h : s.Sourced folding rules) (e : Step) :
    (s.step folding rules e).1.Sourced folding rules := by
  have hremove : ∀ run, Sourced folding rules { s with runs := s.runs.remove run } := by
    intro run other seen adds hget
    by_cases hrun : other = run
    · subst hrun
      cases (KeyedMap.get_remove_self s.runs other).symm.trans hget
    · exact h other seen adds ((KeyedMap.get_remove_ne s.runs hrun).symm.trans hget)
  cases e with
  | retitle title => exact h
  | label added removed => exact h
  | readTitle run fails =>
      rw [step]
      split_ifs
      · exact hremove run
      · intro other seen adds hget
        by_cases hrun : other = run
        · subst hrun
          cases (KeyedMap.get_set_self s.runs other _).symm.trans hget
        · exact h other seen adds ((KeyedMap.get_set_ne s.runs _ hrun).symm.trans hget)
  | classify run defined fails =>
      rw [step]
      split
      · next title _ =>
          dsimp only
          split
          · exact hremove run
          · next hadds =>
              intro other seen adds hget
              by_cases hrun : other = run
              · subst hrun
                obtain ⟨rfl, rfl⟩ := Stage.planned.inj (Option.some.inj
                  ((KeyedMap.get_set_self s.runs other _).symm.trans hget))
                exact ⟨title, fun label hlabel => (mem_plan_iff.mp hlabel).1⟩
              · exact h other seen adds ((KeyedMap.get_set_ne s.runs _ hrun).symm.trans hget)
      · exact h
  | edit run fails =>
      rw [step]
      split
      · exact hremove run
      · exact h

/-- One step keeps the labels tidy exactly when it is in order. -/
theorem tidy_step_iff (hrules : rules.WellFormed) (hsourced : s.Sourced folding rules)
    (htidy : Tidy rules s.labels) (e : Step) :
    Tidy rules (s.step folding rules e).1.labels ↔ s.InOrder rules e := by
  cases e with
  | retitle title => exact iff_of_true htidy trivial
  | label added removed => exact Iff.rfl
  | readTitle run fails =>
      rw [step]
      split_ifs
      · exact iff_of_true htidy trivial
      · exact iff_of_true htidy trivial
  | classify run defined fails =>
      rw [step]
      refine iff_of_true ?_ trivial
      split
      · dsimp only
        split
        · exact htidy
        · exact htidy
      · exact htidy
  | edit run fails =>
      cases hget : s.runs.get run with
      | none =>
          rw [step, hget]
          apply iff_of_true htidy
          cases fails with
          | false => exact fun seen adds h => nomatch hget.symm.trans h
          | true => trivial
      | some stage =>
          cases stage with
          | titled title =>
              rw [step, hget]
              apply iff_of_true htidy
              cases fails with
              | false => exact fun seen adds h => nomatch hget.symm.trans h
              | true => trivial
          | planned seen adds =>
              obtain ⟨title, hadds⟩ := hsourced run seen adds hget
              rw [step, hget]
              cases fails with
              | true => exact iff_of_true htidy trivial
              | false =>
                  refine (tidy_addLabels_iff hrules hadds htidy).trans ?_
                  constructor
                  · intro h seen' adds' hget'
                    obtain ⟨rfl, rfl⟩ := Stage.planned.inj
                      (Option.some.inj (hget.symm.trans hget'))
                    exact h
                  · exact fun h => h seen adds hget

/-- Throughout the life of an issue no tier of one label has two, exactly when
people keep it so and no edit of the workflow meets a label in a tier that it
fills which came after the labels were read, or which a failed read has missed. -/
theorem tidy_throughout_iff (folding : CaseFolding) (rules : Rules) (hrules : rules.WellFormed)
    (title : String) (steps : List Step) :
    (∀ pre post, steps = pre ++ post →
      Tidy rules (Machine.final (step folding rules) (opened title) pre).labels) ↔
    ∀ pre e post, steps = pre ++ e :: post →
      (Machine.final (step folding rules) (opened title) pre).InOrder rules e := by
  apply Machine.always_iff (I := fun s : Tracker => Tidy rules s.labels)
    (J := fun s => s.Sourced folding rules)
  · exact fun e _ s hsourced => sourced_step hsourced e
  · exact fun e _ s hsourced htidy => tidy_step_iff hrules hsourced htidy e
  · exact sourced_opened title
  · intro a ha
    exact absurd ha List.not_mem_nil

theorem tidy_throughout_iff_labelClassifier :
    labelClassifier.WellFormed ∧
      let steps : List Step := [.readTitle 1 false, .label ["bug"] [],
        .classify 1 ["bug", "documentation"] true, .edit 1 false]
      ((∀ pre post, steps = pre ++ post → Tidy labelClassifier
        (Machine.final (step ligatureFolding labelClassifier) (opened "docs: typo") pre).labels) ↔
      ∀ pre e post, steps = pre ++ e :: post →
        (Machine.final (step ligatureFolding labelClassifier) (opened "docs: typo") pre).InOrder
          labelClassifier e) :=
  ⟨wellFormed_labelClassifier,
    tidy_throughout_iff ligatureFolding labelClassifier wellFormed_labelClassifier "docs: typo" _⟩

end Tracker

end CivicConnect.Triage
