import CivicConnect.Triage.Classify

/-!
# What the classifier suggests

A label is suggested when a rule names it, the issue does not have it, and it is
the first of its tier where the tier holds one label and is free.
-/

namespace CivicConnect.Triage

theorem mem_unique {label : String} {labels : List String} :
    label ∈ unique labels ↔ label ∈ labels := by
  rw [unique, List.mem_mergeSort, List.mem_dedup]

theorem order_textLE : Ranking.Order textLE := Ranking.order_codePoints

theorem Rules.order_ranked (rules : Rules) : Ranking.Order rules.ranked :=
  order_textLE.byRank _

/-- No tier has a maximum other than one, labels outside of the taxonomy have
none, the signals are not types, and no label is empty. -/
structure Rules.WellFormed (rules : Rules) : Prop where
  limits : ∀ entry ∈ rules.tierMax, entry.2 = none ∨ entry.2 = some 1
  unknown_unlimited : rules.maxOf "?" = none
  signals_untyped : ∀ entry ∈ rules.statusSignal ++ rules.metaSignal ++ rules.scopeSignal,
    entry.1 ∉ rules.types
  canonical_nonempty : rules.isCanonical "" = false

theorem Rules.mem_tierMax_of_maxOf {rules : Rules} {tier : String} {max : ℕ}
    (h : rules.maxOf tier = some max) : (tier, some max) ∈ rules.tierMax := by
  rw [maxOf, Option.join_eq_some_iff] at h
  obtain ⟨before, after, hentries, _⟩ := List.lookup_eq_some_iff.mp h
  rw [hentries]
  simp

theorem Rules.WellFormed.maxOf_eq {rules : Rules} (h : rules.WellFormed) (tier : String) (max : ℕ)
    (hmax : rules.maxOf tier = some max) : max = 1 := by
  rcases h.limits _ (Rules.mem_tierMax_of_maxOf hmax) with hnone | hone
  · cases hnone
  · exact Option.some.inj hone

variable {folding : CaseFolding} {rules : Rules} {title : String} {label : String}
  {labels haves : List String}

theorem mem_limit_iff (h : rules.WellFormed) {tier : String} {group : List String} :
    label ∈ limit rules tier group ↔ label ∈ group ∧
      (rules.maxOf tier = none ∨ ∀ other ∈ group, rules.ranked label other = true) := by
  have horder := rules.order_ranked
  rw [limit]
  cases hmax : rules.maxOf tier with
  | none => simp
  | some max =>
      obtain rfl := h.maxOf_eq tier max hmax
      have hleast := horder.head?_mergeSort_eq_some_iff (l := group) (a := label)
      simp only [reduceCtorEq, false_or]
      rw [← hleast]
      split_ifs with hshort
      · cases group with
        | nil => simp
        | cons first rest =>
            have hrest : rest = [] := by
              apply List.length_eq_zero_iff.mp
              simpa using hshort
            rw [hrest, List.mergeSort_singleton, List.mem_singleton, List.head?_cons,
              Option.some.injEq, eq_comm]
      · cases hsorted : group.mergeSort rules.ranked with
        | nil => simp
        | cons first rest => simp [eq_comm]

theorem mem_enforce_iff (h : rules.WellFormed) : label ∈ enforce rules labels ↔
    label ∈ labels ∧ (rules.maxOf (rules.tier label) = none ∨
      ∀ other ∈ labels, rules.tier other = rules.tier label → rules.ranked label other = true) := by
  have hmem : ∀ tier other, other ∈ (unique labels).filter (fun other => rules.tier other = tier) ↔
      other ∈ labels ∧ rules.tier other = tier := by
    intro tier other
    rw [List.mem_filter, mem_unique, decide_eq_true_iff]
  rw [enforce, List.mem_flatMap]
  constructor
  · rintro ⟨tier, _, hlimit⟩
    rw [mem_limit_iff h, hmem] at hlimit
    obtain ⟨⟨hlabel, rfl⟩, hfirst⟩ := hlimit
    refine ⟨hlabel, hfirst.imp id fun hleast other hother htier => ?_⟩
    exact hleast other ((hmem _ other).mpr ⟨hother, htier⟩)
  · rintro ⟨hlabel, hfirst⟩
    refine ⟨rules.tier label, mem_unique.mpr (List.mem_map_of_mem (mem_unique.mpr hlabel)), ?_⟩
    rw [mem_limit_iff h, hmem]
    refine ⟨⟨hlabel, rfl⟩, hfirst.imp id fun hleast other hother => ?_⟩
    obtain ⟨hother, htier⟩ := (hmem _ other).mp hother
    exact hleast other hother htier

theorem mem_lockedtiers_iff {tier : String} : tier ∈ lockedtiers rules haves ↔
    rules.maxOf tier = some 1 ∧ ∃ other ∈ haves, rules.tier other = tier := by
  rw [lockedtiers, List.mem_filter, Bool.and_eq_true, decide_eq_true_iff, List.any_eq_true]
  simp only [decide_eq_true_eq]
  apply and_iff_right_of_imp
  rintro ⟨hmax, _⟩
  exact List.mem_map_of_mem (Rules.mem_tierMax_of_maxOf hmax)

theorem mem_candidates_iff : label ∈ candidates folding rules title haves ↔
    rules.isCanonical label = true ∧ (label ∈ ruleLabels folding rules title ∨
      keywordLabel folding rules title haves = some label ∨
        label ∈ signalLabels folding rules title) := by
  rw [candidates, List.mem_filter, List.mem_append, List.mem_append, Option.mem_toList,
    or_assoc, and_comm]

theorem mem_suggestions_iff (h : rules.WellFormed) :
    label ∈ suggestions folding rules title haves ↔
      label ∈ candidates folding rules title haves ∧ label ∉ haves ∧
        (rules.maxOf (rules.tier label) = none ∨
          (∀ other ∈ haves, rules.tier other ≠ rules.tier label) ∧
            ∀ other ∈ candidates folding rules title haves, rules.tier other = rules.tier label →
              rules.ranked label other = true) := by
  simp only [suggestions, List.mem_filter, decide_eq_true_eq, mem_enforce_iff h,
    mem_lockedtiers_iff, List.mem_append, mem_unique]
  constructor
  · rintro ⟨⟨⟨hmem, hfirst⟩, hnew⟩, hunlocked⟩
    have hcandidate : label ∈ candidates folding rules title haves :=
      hmem.elim id fun hold => absurd hold.1 hnew
    refine ⟨hcandidate, hnew, ?_⟩
    cases hmax : rules.maxOf (rules.tier label) with
    | none => exact Or.inl rfl
    | some max =>
        obtain rfl := h.maxOf_eq _ max hmax
        right
        constructor
        · intro other hother htier
          exact hunlocked ⟨hmax, other, hother, htier⟩
        · intro other hother
          rw [hmax] at hfirst
          exact (hfirst.resolve_left nofun) other (Or.inl hother)
  · rintro ⟨hcandidate, hnew, hfree⟩
    refine ⟨⟨⟨Or.inl hcandidate, hfree.imp id ?_⟩, hnew⟩, ?_⟩
    · rintro ⟨hothers, hleast⟩ other (hother | ⟨hother, _⟩) htier
      · exact hleast other hother htier
      · exact absurd htier (hothers other hother)
    · rintro ⟨hmax, other, hother, htier⟩
      rcases hfree with hnone | ⟨hothers, _⟩
      · cases hmax.symm.trans hnone
      · exact hothers other hother htier

theorem mem_present_iff : label ∈ present labels ↔ label ∈ labels ∧ label ≠ "" := by
  rw [present, mem_unique, List.mem_filter, decide_eq_true_iff]

/-- The classifier is sure enough to print anything. -/
def Confident (folding : CaseFolding) (rules : Rules) (title : String) (labels : List String) :
    Prop :=
  (ruleMatches rules title = true ∨
    (keywordLabel folding rules title (present labels)).isSome = true) ∧
    ∃ type ∈ rules.types, type ∈ suggestions folding rules title (present labels) ∨
      type ∈ present labels

theorem mem_classify_iff : label ∈ classify folding rules title labels ↔
    Confident folding rules title labels ∧
      label ∈ suggestions folding rules title (present labels) := by
  have htyped : ((suggestions folding rules title (present labels) ++ present labels).any
      (· ∈ rules.types)) = true ↔ ∃ type ∈ rules.types,
        type ∈ suggestions folding rules title (present labels) ∨ type ∈ present labels := by
    rw [List.any_eq_true]
    constructor
    · rintro ⟨type, hmem, htype⟩
      exact ⟨type, of_decide_eq_true htype, List.mem_append.mp hmem⟩
    · rintro ⟨type, htype, hmem⟩
      exact ⟨type, List.mem_append.mpr hmem, decide_eq_true htype⟩
  rw [classify, Confident, ← htyped, ← Bool.or_eq_true]
  split_ifs with hrule htype
  · apply iff_of_false List.not_mem_nil
    rintro ⟨⟨hfires, _⟩, _⟩
    simp [hfires] at hrule
  · apply iff_of_false List.not_mem_nil
    rintro ⟨⟨_, hany⟩, _⟩
    simp [hany] at htype
  · rw [mem_unique]
    simp only [Bool.not_eq_true', Bool.not_eq_false] at hrule htype
    exact (and_iff_right ⟨hrule, htype⟩).symm

/-- The labels that a run of the workflow adds, of those that the repository
defines. -/
def plan (folding : CaseFolding) (rules : Rules) (defined : List String) (title : String)
    (labels : List String) : List String :=
  (classify folding rules title labels).filter (· ∈ defined)

variable {defined : List String}

theorem mem_plan_iff : label ∈ plan folding rules defined title labels ↔
    label ∈ classify folding rules title labels ∧ label ∈ defined := by
  rw [plan, List.mem_filter, decide_eq_true_iff]

/-- A type by keywords is dropped only for a type that the issue has got. -/
theorem keywordLabel_append (folding : CaseFolding) (rules : Rules) (title : String)
    (labels added : List String) :
    keywordLabel folding rules title (present (labels ++ added)) = none ∨
      keywordLabel folding rules title (present (labels ++ added)) =
        keywordLabel folding rules title (present labels) := by
  by_cases hany : (ruleLabels folding rules title ++ present (labels ++ added)).any
      (· ∈ rules.types) = true
  · exact Or.inl (if_pos hany)
  · right
    have hbefore : ¬ (ruleLabels folding rules title ++ present labels).any
        (· ∈ rules.types) = true := by
      intro hsome
      obtain ⟨type, hmem, htype⟩ := List.any_eq_true.mp hsome
      refine hany (List.any_eq_true.mpr ⟨type, ?_, htype⟩)
      rcases List.mem_append.mp hmem with hrule | hpresent
      · exact List.mem_append_left _ hrule
      · obtain ⟨hlabel, hne⟩ := mem_present_iff.mp hpresent
        exact List.mem_append_right _ (mem_present_iff.mpr ⟨List.mem_append_left _ hlabel, hne⟩)
    exact (if_neg hany).trans (if_neg hbefore).symm

theorem ne_empty_of_classify (hrules : rules.WellFormed)
    (h : label ∈ classify folding rules title labels) : label ≠ "" := by
  rintro rfl
  obtain ⟨_, hsuggested⟩ := mem_classify_iff.mp h
  obtain ⟨hcandidate, _⟩ := (mem_suggestions_iff hrules).mp hsuggested
  cases hrules.canonical_nonempty.symm.trans (mem_candidates_iff.mp hcandidate).1

theorem mem_present_plan_iff (folding : CaseFolding) (defined : List String) (title : String)
    (labels : List String) (hrules : rules.WellFormed) (label : String) :
    label ∈ present (labels ++ plan folding rules defined title labels) ↔
      label ∈ present labels ∨ label ∈ plan folding rules defined title labels := by
  rw [mem_present_iff, mem_present_iff, List.mem_append]
  constructor
  · rintro ⟨hlabel | hplan, hne⟩
    · exact Or.inl ⟨hlabel, hne⟩
    · exact Or.inr hplan
  · rintro (⟨hlabel, hne⟩ | hplan)
    · exact ⟨Or.inl hlabel, hne⟩
    · exact ⟨Or.inr hplan, ne_empty_of_classify hrules (mem_plan_iff.mp hplan).1⟩

theorem untyped_of_mem_signalLabels (hrules : rules.WellFormed)
    (h : label ∈ signalLabels folding rules title) : label ∉ rules.types := by
  have hsignals : ∀ sec, (∀ entry ∈ sec, entry.1 ∉ rules.types) →
      label ∈ signals folding (String.ofList (norm title.toList)) sec → label ∉ rules.types := by
    intro sec hsec hmem
    obtain ⟨entry, hentry, rfl⟩ := List.mem_map.mp hmem
    exact hsec entry (List.mem_filter.mp hentry).1
  have huntyped := hrules.signals_untyped
  simp only [List.forall_mem_append] at huntyped
  rw [signalLabels, List.mem_append, List.mem_append] at h
  rcases h with (h | h) | h
  · exact hsignals _ huntyped.1.1 h
  · exact hsignals _ huntyped.1.2 h
  · exact hsignals _ huntyped.2 h

/-- A type by keywords is dropped in a second run only if the first has added it. -/
theorem mem_plan_of_keywordLabel (hrules : rules.WellFormed)
    (hbefore : keywordLabel folding rules title (present labels) = some label)
    (hafter : keywordLabel folding rules title
      (present (labels ++ plan folding rules defined title labels)) = none) :
    label ∈ plan folding rules defined title labels := by
  unfold keywordLabel at hbefore
  split_ifs at hbefore with hany
  unfold keywordLabel at hafter
  split_ifs at hafter with hanyAfter
  · obtain ⟨type, hmem, htype⟩ := List.any_eq_true.mp hanyAfter
    have htype : type ∈ rules.types := of_decide_eq_true htype
    have hfresh : type ∉ ruleLabels folding rules title ∧ type ∉ present labels := by
      constructor
      · intro hrule
        exact hany (List.any_eq_true.mpr
          ⟨type, List.mem_append_left _ hrule, decide_eq_true htype⟩)
      · intro hpresent
        exact hany (List.any_eq_true.mpr
          ⟨type, List.mem_append_right _ hpresent, decide_eq_true htype⟩)
    have hplan : type ∈ plan folding rules defined title labels :=
      (((mem_present_plan_iff folding defined title labels hrules type).mp
        ((List.mem_append.mp hmem).resolve_left hfresh.1)).resolve_left hfresh.2)
    obtain ⟨_, hsuggested⟩ := mem_classify_iff.mp (mem_plan_iff.mp hplan).1
    have hcandidate := (mem_candidates_iff.mp ((mem_suggestions_iff hrules).mp hsuggested).1).2
    rcases hcandidate with hrule | hkeyword | hsignal
    · exact absurd hrule hfresh.1
    · rw [keywordLabel, if_neg hany, hbefore] at hkeyword
      exact Option.some.inj hkeyword ▸ hplan
    · exact absurd htype (untyped_of_mem_signalLabels hrules hsignal)
  · cases hafter.symm.trans hbefore

/-- What a second run has to choose from the first had, too; and what it has lost
the first has added. -/
theorem candidates_after_plan (folding : CaseFolding) (defined : List String) (title : String)
    (labels : List String) (hrules : rules.WellFormed) :
    (∀ other ∈ candidates folding rules title
        (present (labels ++ plan folding rules defined title labels)),
      other ∈ candidates folding rules title (present labels)) ∧
    ∀ other ∈ candidates folding rules title (present labels),
      other ∈ plan folding rules defined title labels ∨
        other ∈ candidates folding rules title
          (present (labels ++ plan folding rules defined title labels)) := by
  have hkeyword := keywordLabel_append folding rules title labels
    (plan folding rules defined title labels)
  constructor
  · intro other hother
    obtain ⟨hcanonical, hnamed⟩ := mem_candidates_iff.mp hother
    refine mem_candidates_iff.mpr ⟨hcanonical, hnamed.imp id (Or.imp ?_ id)⟩
    intro hafter
    rcases hkeyword with hnone | hsame
    · cases hnone.symm.trans hafter
    · exact hsame.symm.trans hafter
  · intro other hother
    obtain ⟨hcanonical, hnamed⟩ := mem_candidates_iff.mp hother
    rcases hnamed with hrule | hbefore | hsignal
    · exact Or.inr (mem_candidates_iff.mpr ⟨hcanonical, Or.inl hrule⟩)
    · rcases hkeyword with hnone | hsame
      · exact Or.inl (mem_plan_of_keywordLabel hrules hbefore hnone)
      · exact Or.inr (mem_candidates_iff.mpr
          ⟨hcanonical, Or.inr (Or.inl (hsame.trans hbefore))⟩)
    · exact Or.inr (mem_candidates_iff.mpr ⟨hcanonical, Or.inr (Or.inr hsignal)⟩)

/-- A second run on an issue whose title has not changed adds nothing. -/
theorem plan_after_plan (folding : CaseFolding) (rules : Rules) (defined : List String)
    (title : String) (labels : List String) (hrules : rules.WellFormed) :
    plan folding rules defined title (labels ++ plan folding rules defined title labels) = [] := by
  by_cases hconfident : Confident folding rules title labels
  · rw [List.eq_nil_iff_forall_not_mem]
    intro label hlabel
    obtain ⟨hclassify, hdefined⟩ := mem_plan_iff.mp hlabel
    obtain ⟨_, hsuggested⟩ := mem_classify_iff.mp hclassify
    obtain ⟨hcandidate, hnew, hfree⟩ := (mem_suggestions_iff hrules).mp hsuggested
    obtain ⟨hbefore, hlost⟩ := candidates_after_plan folding defined title labels hrules
    have hkept := mem_present_plan_iff folding defined title labels hrules
    have hunplanned : label ∉ plan folding rules defined title labels :=
      fun hplan => hnew ((hkept label).mpr (Or.inr hplan))
    apply hunplanned
    -- The first run would have suggested the label, too.
    refine mem_plan_iff.mpr ⟨mem_classify_iff.mpr ⟨hconfident, ?_⟩, hdefined⟩
    refine (mem_suggestions_iff hrules).mpr ⟨hbefore label hcandidate, ?_, hfree.imp id ?_⟩
    · exact fun hpresent => hnew ((hkept label).mpr (Or.inl hpresent))
    · rintro ⟨hothers, hleast⟩
      constructor
      · exact fun other hother => hothers other ((hkept other).mpr (Or.inl hother))
      · intro other hother htier
        rcases hlost other hother with hplan | hcandidate
        · exact absurd htier (hothers other ((hkept other).mpr (Or.inr hplan)))
        · exact hleast other hcandidate htier
  · have hnil : plan folding rules defined title labels = [] := by
      rw [List.eq_nil_iff_forall_not_mem]
      intro label hlabel
      exact hconfident (mem_classify_iff.mp (mem_plan_iff.mp hlabel).1).1
    rw [hnil, List.append_nil, hnil]

end CivicConnect.Triage
