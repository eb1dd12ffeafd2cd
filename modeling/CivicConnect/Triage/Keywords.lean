import Mathlib.Data.List.Infix

/-!
# Keywords in titles

A keyword is looked for as a regular expression, without regard to case: strict
on its left, and on its right with one of a closed list of endings. How the
engine folds the case of a character is a parameter; one character may fold to
several, as a ligature does.
-/

namespace CivicConnect.Triage

def alphanumerics : List Char :=
  "ABCDEFGHIJKLMNOPQRSTUVWXYZabcdefghijklmnopqrstuvwxyz0123456789".toList

/-- The class `[A-Za-z0-9]`. -/
def isAlphanumeric (c : Char) : Bool := alphanumerics.contains c

/-- The endings that `kwrx` admits after a keyword. -/
def endings (kw : List Char) : List (List Char) :=
  (["s", "es", "ed", "d", "ing", "er", "ers", "y", "ies"] ++
    if "at".toList.isSuffixOf kw then ["ion", "ions", "e"]
    else if "ment".toList.isSuffixOf kw then ["ation", "ations"]
    else []).map String.toList

/-- The case folding of the engine: some characters for every character, and one
for a letter or digit of the class. -/
structure CaseFolding where
  fold : Char → List Char
  fold_ne_nil : ∀ c, fold c ≠ []
  fold_alphanumeric : ∀ a ∈ alphanumerics, ∃ x, fold a = [x]

section

variable (folding : CaseFolding)

/-- The folded text. -/
def CaseFolding.text (cs : List Char) : List Char := cs.flatMap folding.fold

/-- The same class in an expression that ignores case. -/
def wordChar (c : Char) : Bool := alphanumerics.any fun a => folding.fold a = folding.fold c

/-- What is left of the text after as many whole characters as fold to this. -/
def afterFolded : List Char → List Char → Option (List Char)
  | [], text => some text
  | _ :: _, [] => none
  | x :: xs, c :: cs =>
      match (x :: xs).dropPrefix? (folding.fold c) with
      | some left => afterFolded left cs
      | none => none

/-- What is left of the text after the literal. -/
def afterLiteral (literal text : List Char) : Option (List Char) :=
  afterFolded folding (folding.text literal) text

/-- No character of a word on this side. -/
def boundary (c : Option Char) : Bool :=
  match c with
  | some c => !wordChar folding c
  | none => true

/-- The part of `kwrx` after the literal. -/
def endsWell (kw rest : List Char) : Bool :=
  if kw.getLast?.any isAlphanumeric then
    ([] :: endings kw).any fun ending =>
      match afterLiteral folding ending rest with
      | some after => boundary folding after.head?
      | none => false
  else true

/-- The expression matches at a place, with the character before it. -/
def matchesAt (kw : List Char) (before : Option Char) (text : List Char) : Bool :=
  (if kw.head?.any isAlphanumeric then boundary folding before else true) &&
    match afterLiteral folding kw text with
    | some rest => endsWell folding kw rest
    | none => false

/-- The expression matches somewhere. -/
def matchesFrom (kw : List Char) (before : Option Char) : List Char → Bool
  | [] => matchesAt folding kw before []
  | c :: cs => matchesAt folding kw before (c :: cs) || matchesFrom kw (some c) cs

def kwhit (kw text : String) : Bool := matchesFrom folding kw.toList none text.toList

/-- The character folds to letters and digits, to several of them perhaps. -/
def FoldsToWord (c : Char) : Prop :=
  ∀ x ∈ folding.fold c, ∃ a ∈ alphanumerics, folding.fold a = [x]

/-- A word of a text: characters that fold to letters and digits, with no letter
or digit before and after it. -/
def IsWord (text word : List Char) : Prop :=
  ∃ before after, text = before ++ word ++ after ∧ (∀ c ∈ word, FoldsToWord folding c) ∧
    boundary folding before.getLast? = true ∧ boundary folding after.head? = true

end

variable {folding : CaseFolding}

theorem CaseFolding.text_eq_nil_iff {cs : List Char} : folding.text cs = [] ↔ cs = [] := by
  rw [text, List.flatMap_eq_nil_iff, List.eq_nil_iff_forall_not_mem]
  exact forall₂_congr fun c _ => iff_false_intro (folding.fold_ne_nil c)

theorem dropPrefix_fold_eq_some_iff {folded left : List Char} {c : Char} :
    folded.dropPrefix? (folding.fold c) = some left ↔ folded = folding.fold c ++ left := by
  rw [List.dropPrefix?_eq_some_iff]
  constructor
  · rintro ⟨first, hsplit, hfirst⟩
    rw [hsplit, eq_of_beq hfirst]
  · exact fun hsplit => ⟨folding.fold c, hsplit, beq_self_eq_true _⟩

/-- No character folds to nothing, so what is left after nothing is the text. -/
theorem afterFolded_nil_iff {text rest : List Char} :
    afterFolded folding [] text = some rest ↔
      ∃ found, text = found ++ rest ∧ folding.text found = [] := by
  simp [afterFolded, CaseFolding.text_eq_nil_iff]

theorem afterFolded_eq_some_iff {folded text rest : List Char} :
    afterFolded folding folded text = some rest ↔
      ∃ found, text = found ++ rest ∧ folding.text found = folded := by
  induction text generalizing folded with
  | nil =>
      cases folded with
      | nil => exact afterFolded_nil_iff
      | cons x xs =>
          apply iff_of_false nofun
          rintro ⟨found, htext, hfound⟩
          rw [(List.append_eq_nil_iff.mp htext.symm).1] at hfound
          cases hfound
  | cons c cs ih =>
      cases folded with
      | nil => exact afterFolded_nil_iff
      | cons x xs =>
          rw [afterFolded]
          split
          · next left hleft =>
              rw [dropPrefix_fold_eq_some_iff] at hleft
              rw [ih]
              constructor
              · rintro ⟨found, rfl, rfl⟩
                exact ⟨c :: found, rfl, hleft.symm⟩
              · rintro ⟨found, htext, hfound⟩
                cases found with
                | nil => cases hfound
                | cons d found =>
                    obtain ⟨rfl, rfl⟩ := List.cons.inj htext
                    rw [hleft, CaseFolding.text, List.flatMap_cons] at hfound
                    exact ⟨found, rfl, List.append_cancel_left hfound⟩
          · next hnone =>
              apply iff_of_false nofun
              rintro ⟨found, htext, hfound⟩
              cases found with
              | nil => cases hfound
              | cons d found =>
                  obtain ⟨rfl, rfl⟩ := List.cons.inj htext
                  rw [dropPrefix_fold_eq_some_iff.mpr hfound.symm] at hnone
                  cases hnone

theorem afterLiteral_eq_some_iff {literal text rest : List Char} :
    afterLiteral folding literal text = some rest ↔
      ∃ found, text = found ++ rest ∧ folding.text found = folding.text literal :=
  afterFolded_eq_some_iff

theorem getLast?_cons_or (before : Option Char) (c : Char) (cs : List Char) :
    (c :: cs).getLast?.or before = cs.getLast?.or (some c) := by
  rw [List.getLast?_cons]
  cases cs.getLast? with
  | none => rfl
  | some last => rfl

theorem matchesFrom_iff {kw : List Char} {before : Option Char} {text : List Char} :
    matchesFrom folding kw before text = true ↔
      ∃ skipped rest, text = skipped ++ rest ∧
        matchesAt folding kw (skipped.getLast?.or before) rest = true := by
  induction text generalizing before with
  | nil =>
      rw [matchesFrom]
      constructor
      · intro h
        exact ⟨[], [], rfl, h⟩
      · rintro ⟨skipped, rest, htext, h⟩
        obtain ⟨rfl, rfl⟩ := List.append_eq_nil_iff.mp htext.symm
        exact h
  | cons c cs ih =>
      rw [matchesFrom, Bool.or_eq_true, ih]
      constructor
      · rintro (h | ⟨skipped, rest, rfl, h⟩)
        · exact ⟨[], c :: cs, rfl, h⟩
        · refine ⟨c :: skipped, rest, rfl, ?_⟩
          rw [getLast?_cons_or]
          exact h
      · rintro ⟨skipped, rest, htext, h⟩
        cases skipped with
        | nil =>
            obtain rfl : c :: cs = rest := htext
            exact Or.inl h
        | cons d ds =>
            obtain ⟨rfl, rfl⟩ := List.cons.inj htext
            rw [getLast?_cons_or] at h
            exact Or.inr ⟨ds, rest, rfl, h⟩

/-- What folds to a text of letters and digits has only characters that do. -/
theorem foldsToWord_of_text_eq {found literal : List Char}
    (h : folding.text found = folding.text literal)
    (hliteral : literal.all isAlphanumeric = true) : ∀ c ∈ found, FoldsToWord folding c := by
  intro c hc x hx
  have hmem : x ∈ folding.text literal := h ▸ List.mem_flatMap.mpr ⟨c, hc, hx⟩
  obtain ⟨a, ha, hfold⟩ := List.mem_flatMap.mp hmem
  have hclass : a ∈ alphanumerics := List.contains_iff_mem.mp (List.all_eq_true.mp hliteral a ha)
  obtain ⟨y, hy⟩ := folding.fold_alphanumeric a hclass
  rw [hy, List.mem_singleton] at hfold
  exact ⟨a, hclass, hfold ▸ hy⟩

theorem all_of_mem_endings {kw ending : List Char} (h : ending ∈ endings kw) :
    ending.all isAlphanumeric = true := by
  have hall : (endings kw).all (List.all · isAlphanumeric) = true := by
    unfold endings
    split_ifs
    · decide
    · decide
    · decide
  exact List.all_eq_true.mp hall ending h

/-- A keyword of letters and digits is found exactly when a word of the title is
the keyword, alone or with one of the endings, each up to the case. -/
theorem kwhit_iff_isWord (folding : CaseFolding) (kw text : String) (hkw : kw ≠ "")
    (halnum : kw.toList.all isAlphanumeric = true) :
    kwhit folding kw text = true ↔
      ∃ stem tail ending, IsWord folding text.toList (stem ++ tail) ∧
        ending ∈ [] :: endings kw.toList ∧ folding.text stem = folding.text kw.toList ∧
          folding.text tail = folding.text ending := by
  have hnil : kw.toList ≠ [] := fun h => hkw (String.toList_eq_nil_iff.mp h)
  have hhead : kw.toList.head?.any isAlphanumeric = true := by
    rw [List.head?_eq_some_head hnil]
    exact List.all_eq_true.mp halnum _ (List.head_mem hnil)
  have hlast : kw.toList.getLast?.any isAlphanumeric = true := by
    rw [List.getLast?_eq_some_getLast hnil]
    exact List.all_eq_true.mp halnum _ (List.getLast_mem hnil)
  rw [kwhit, matchesFrom_iff]
  constructor
  · rintro ⟨skipped, rest, htext, h⟩
    rw [Option.or_none, matchesAt, if_pos hhead, Bool.and_eq_true] at h
    obtain ⟨hbefore, h⟩ := h
    split at h
    · next afterKeyword hkeyword =>
        rw [endsWell, if_pos hlast, List.any_eq_true] at h
        obtain ⟨ending, hending, h⟩ := h
        split at h
        · next after hafter =>
            obtain ⟨stem, rfl, hstem⟩ := afterLiteral_eq_some_iff.mp hkeyword
            obtain ⟨tail, rfl, htail⟩ := afterLiteral_eq_some_iff.mp hafter
            have hendingWord : ending.all isAlphanumeric = true := by
              rcases List.mem_cons.mp hending with rfl | hending
              · rfl
              · exact all_of_mem_endings hending
            refine ⟨stem, tail, ending, ⟨skipped, after, ?_, ?_, hbefore, h⟩, hending, hstem,
              htail⟩
            · rw [htext, List.append_assoc, List.append_assoc]
            · rw [List.forall_mem_append]
              exact ⟨foldsToWord_of_text_eq hstem halnum,
                foldsToWord_of_text_eq htail hendingWord⟩
        · cases h
    · cases h
  · rintro ⟨stem, tail, ending, ⟨before, after, htext, _, hbefore, hafter⟩, hending, hstem,
      htail⟩
    refine ⟨before, stem ++ (tail ++ after), ?_, ?_⟩
    · rw [htext, List.append_assoc, List.append_assoc]
    · have hkeyword : afterLiteral folding kw.toList (stem ++ (tail ++ after)) =
          some (tail ++ after) := afterLiteral_eq_some_iff.mpr ⟨stem, rfl, hstem⟩
      have hrest : afterLiteral folding ending (tail ++ after) = some after :=
        afterLiteral_eq_some_iff.mpr ⟨tail, rfl, htail⟩
      rw [Option.or_none, matchesAt, if_pos hhead, hbefore, Bool.true_and, hkeyword]
      dsimp only
      rw [endsWell, if_pos hlast, List.any_eq_true]
      refine ⟨ending, hending, ?_⟩
      rw [hrest]
      exact hafter

/-- Lower case, with one ligature. -/
def ligatureFolding : CaseFolding where
  fold c := if c = '\ufb01' then ['f', 'i'] else [c.toLower]
  fold_ne_nil c := by
    split_ifs
    · exact List.cons_ne_nil _ _
    · exact List.cons_ne_nil _ _
  fold_alphanumeric a ha := by
    have hne : a ≠ '\ufb01' := by
      rintro rfl
      exact absurd ha (by decide)
    exact ⟨a.toLower, if_neg hne⟩

/-- The ligature hits the keyword, with an ending behind it. -/
theorem kwhit_iff_isWord_ligature :
    kwhit ligatureFolding "config" "Con\ufb01gs: clean up" = true ∧
      ∃ stem tail ending, IsWord ligatureFolding "Con\ufb01gs: clean up".toList (stem ++ tail) ∧
        ending ∈ [] :: endings "config".toList ∧
          ligatureFolding.text stem = ligatureFolding.text "config".toList ∧
            ligatureFolding.text tail = ligatureFolding.text ending := by
  have hhit : kwhit ligatureFolding "config" "Con\ufb01gs: clean up" = true := by decide +kernel
  exact ⟨hhit, (kwhit_iff_isWord ligatureFolding "config" "Con\ufb01gs: clean up" (by decide)
    (by decide)).mp hhit⟩

end CivicConnect.Triage
