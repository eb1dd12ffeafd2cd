import CivicConnect.Library.PrefixCode
import CivicConnect.Net.Numerals

/-!
# The rotation interval

`parse_duration` reads a number of hours, minutes or seconds. The products with
the seconds of an hour or a minute are plain multiplications of 64 bit numbers,
and what they do beyond 64 bits depends on how the program was built.
-/

namespace CivicConnect.Odns

open Net

/-- Whether the build checks arithmetic: with the checks an overflow panics,
without them it wraps around. -/
inductive Profile where
  | debug
  | release
  deriving DecidableEq, Repr

inductive ArithmeticPanic where
  | multiplyWithOverflow
  deriving DecidableEq, Repr

def mulU64 (profile : Profile) (a b : ℕ) : Except ArithmeticPanic ℕ :=
  if a * b < 2 ^ 64 then .ok (a * b)
  else
    match profile with
    | .debug => .error .multiplyWithOverflow
    | .release => .ok (a * b % 2 ^ 64)

def stripSuffix (cs : List Char) (suffix : Char) : Option (List Char) :=
  if cs.getLast? = some suffix then some cs.dropLast else none

/-- `parse`, with the words before the error. -/
def parseU64 (words : String) (cs : List Char) : Except String ℕ :=
  (fromStrRadix 10 (2 ^ 64 - 1) cs).mapError fun e => words ++ e.display

/-- The seconds of the duration, an error, or a panic. -/
def parseDuration (profile : Profile) (s : String) :
    Except ArithmeticPanic (Except String ℕ) :=
  let s := trim s.toList
  match stripSuffix s 'h' with
  | some hours =>
      match parseU64 "invalid hours: " hours with
      | .error message => .ok (.error message)
      | .ok h => (mulU64 profile h 3600).map .ok
  | none =>
      match stripSuffix s 'm' with
      | some mins =>
          match parseU64 "invalid minutes: " mins with
          | .error message => .ok (.error message)
          | .ok m => (mulU64 profile m 60).map .ok
      | none =>
          match stripSuffix s 's' with
          | some secs => .ok (parseU64 "invalid seconds: " secs)
          | none => .ok (parseU64 "invalid duration: " s)

/-- The trimmed text is a 64 bit numeral with this value, before one of the
suffixes that stand for the given number of seconds. -/
def Numbered (s : String) (n unit : ℕ) : Prop :=
  n < 2 ^ 64 ∧ ∃ digits, IsNumeral 10 digits n ∧
    (trim s.toList = digits ++ ['h'] ∧ unit = 3600 ∨
      trim s.toList = digits ++ ['m'] ∧ unit = 60 ∨
      trim s.toList = digits ++ ['s'] ∧ unit = 1 ∨
      trim s.toList = digits ∧ unit = 1)

/-- Durations are read as the products that they stand for, what is no duration
or too long is an error, and nothing panics. -/
def ReadsExactly (profile : Profile) (s : String) : Prop :=
  (∀ d, parseDuration profile s = .ok (.ok d) ↔
      ∃ n unit, Numbered s n unit ∧ n * unit < 2 ^ 64 ∧ d = n * unit) ∧
    parseDuration profile s ≠ .error .multiplyWithOverflow

/-- The number of seconds needs more than 64 bits. -/
def Overlong (s : String) : Prop := ∃ n unit, Numbered s n unit ∧ 2 ^ 64 ≤ n * unit

variable {profile : Profile} {s : String} {cs : List Char} {n n' : ℕ}

theorem parseU64_ok_iff {words : String} :
    parseU64 words cs = .ok n ↔ IsNumeral 10 cs n ∧ n < 2 ^ 64 := by
  rw [parseU64, Except.mapError_ok_iff, fromStrRadix_ok_iff (by decide)]
  exact and_congr_right fun _ => Nat.le_sub_one_iff_lt (by decide)

theorem mulU64_of_lt {a b : ℕ} (h : a * b < 2 ^ 64) : mulU64 profile a b = .ok (a * b) := if_pos h

theorem stripSuffix_snoc (body : List Char) (c suffix : Char) :
    stripSuffix (body ++ [c]) suffix = if c = suffix then some body else none := by
  simp [stripSuffix]

/-- What is left to do once the unit is known. -/
def convert (profile : Profile) (words : String) (unit : ℕ) (digits : List Char) :
    Except ArithmeticPanic (Except String ℕ) :=
  match parseU64 words digits with
  | .error message => .ok (.error message)
  | .ok n => (mulU64 profile n unit).map .ok

/-- Seconds are not multiplied, and need not be. -/
theorem convert_one (profile : Profile) (words : String) (digits : List Char) :
    convert profile words 1 digits = .ok (parseU64 words digits) := by
  rw [convert]
  cases hread : parseU64 words digits with
  | error message => rfl
  | ok n =>
      have hlt : n * 1 < 2 ^ 64 := by
        rw [Nat.mul_one]
        exact (parseU64_ok_iff.mp hread).2
      dsimp only
      rw [mulU64_of_lt hlt, Nat.mul_one]
      rfl

/-- The three suffixes differ in the unit, and in the words of the error. -/
theorem parseDuration_eq (profile : Profile) (s : String) :
    parseDuration profile s =
      match stripSuffix (trim s.toList) 'h' with
      | some hours => convert profile "invalid hours: " 3600 hours
      | none =>
          match stripSuffix (trim s.toList) 'm' with
          | some mins => convert profile "invalid minutes: " 60 mins
          | none =>
              match stripSuffix (trim s.toList) 's' with
              | some secs => convert profile "invalid seconds: " 1 secs
              | none => convert profile "invalid duration: " 1 (trim s.toList) := by
  simp only [convert_one]
  rfl

theorem not_isNumeral_snoc {c : Char} (hc : isDigit 10 c = false) :
    ¬ IsNumeral 10 (cs ++ [c]) n := by
  rintro ⟨digits, htext, hne, hdigits, _⟩
  have hmem : c ∈ digits := by
    rcases htext with rfl | htext
    · exact List.mem_append_right _ List.mem_cons_self
    · cases cs with
      | nil => exact absurd (List.cons.inj htext).2.symm hne
      | cons x xs =>
          rw [← (List.cons.inj htext).2]
          exact List.mem_append_right _ List.mem_cons_self
  rw [hdigits c hmem] at hc
  cases hc

theorem not_isNumeral_nil : ¬ IsNumeral 10 [] n := by
  rintro ⟨digits, rfl | htext, hne, _⟩
  · exact hne rfl
  · cases htext

theorem snoc_inj {body digits : List Char} {c d : Char} :
    body ++ [c] = digits ++ [d] ↔ digits = body ∧ c = d := by
  constructor
  · intro h
    obtain ⟨hbody, hlast⟩ := List.append_inj' h rfl
    exact ⟨hbody.symm, List.singleton_inj.mp hlast⟩
  · rintro ⟨rfl, rfl⟩
    rfl

/-- The suffix settles the unit: a numeral ends in a digit. -/
theorem exists_convert (s : String) : ∃ words unit digits,
    (∀ profile, parseDuration profile s = convert profile words unit digits) ∧
      ∀ n u, Numbered s n u ↔ n < 2 ^ 64 ∧ u = unit ∧ IsNumeral 10 digits n := by
  unfold Numbered
  have hparse := fun profile => parseDuration_eq profile s
  generalize trim s.toList = cs at hparse ⊢
  rcases List.eq_nil_or_concat' cs with rfl | ⟨body, c, rfl⟩
  · refine ⟨_, _, _, hparse, fun n u => ?_⟩
    simp [not_isNumeral_nil]
  · simp only [stripSuffix_snoc] at hparse
    simp only [snoc_inj, eq_comm (a := body ++ [c])]
    by_cases hh : c = 'h'
    · subst hh
      refine ⟨_, _, _, hparse, fun n u => ?_⟩
      have hnone : ¬ IsNumeral 10 (body ++ ['h']) n := not_isNumeral_snoc rfl
      grind
    · by_cases hm : c = 'm'
      · subst hm
        refine ⟨_, _, _, hparse, fun n u => ?_⟩
        have hnone : ¬ IsNumeral 10 (body ++ ['m']) n := not_isNumeral_snoc rfl
        grind
      · by_cases hs : c = 's'
        · subst hs
          refine ⟨_, _, _, hparse, fun n u => ?_⟩
          have hnone : ¬ IsNumeral 10 (body ++ ['s']) n := not_isNumeral_snoc rfl
          grind
        · simp only [if_neg hh, if_neg hm, if_neg hs] at hparse
          exact ⟨_, _, _, hparse, fun n u => by grind⟩

theorem Numbered.unique {unit unit' : ℕ} (h : Numbered s n unit) (h' : Numbered s n' unit') :
    n = n' ∧ unit = unit' := by
  obtain ⟨words, unit₀, digits, _, hnumbered⟩ := exists_convert s
  obtain ⟨hlt, rfl, hnumeral⟩ := (hnumbered n unit).mp h
  obtain ⟨hlt', rfl, hnumeral'⟩ := (hnumbered n' unit').mp h'
  have hread : parseU64 words digits = .ok n := parseU64_ok_iff.mpr ⟨hnumeral, hlt⟩
  rw [parseU64_ok_iff.mpr ⟨hnumeral', hlt'⟩] at hread
  exact ⟨(Except.ok.inj hread).symm, rfl⟩

theorem map_ok_iff {x : Except ArithmeticPanic ℕ} {d : ℕ} :
    x.map (Except.ok : ℕ → Except String ℕ) = .ok (.ok d) ↔ x = .ok d := by
  cases x <;> simp [Except.map]

theorem map_error_iff {x : Except ArithmeticPanic ℕ} {e : ArithmeticPanic} :
    x.map (Except.ok : ℕ → Except String ℕ) = .error e ↔ x = .error e := by
  cases x <;> simp [Except.map]

/-- The multiplication is right exactly where the product fits. -/
theorem mulU64_exact_iff {a b : ℕ} :
    ((∀ d, mulU64 profile a b = .ok d ↔ a * b < 2 ^ 64 ∧ d = a * b) ∧
        mulU64 profile a b ≠ .error .multiplyWithOverflow) ↔ a * b < 2 ^ 64 := by
  constructor
  · rintro ⟨hok, hpanic⟩
    by_contra hlarge
    cases profile with
    | debug => exact hpanic (if_neg hlarge)
    | release => exact hlarge ((hok _).mp (if_neg hlarge)).1
  · intro hfits
    rw [mulU64_of_lt hfits]
    refine ⟨fun d => ?_, nofun⟩
    rw [Except.ok.injEq, eq_comm, and_iff_right hfits]

/-- The interval is read exactly, in either build, unless the number of seconds
needs more than 64 bits. -/
theorem readsExactly_iff (profile : Profile) (s : String) :
    ReadsExactly profile s ↔ ¬ Overlong s := by
  obtain ⟨words, unit, digits, hparse, hnumbered⟩ := exists_convert s
  rw [ReadsExactly, Overlong, hparse, convert]
  cases hread : parseU64 words digits with
  | error message =>
      have hnone : ∀ n u, ¬ Numbered s n u := by
        intro n u hn
        obtain ⟨hlt, _, hnumeral⟩ := (hnumbered n u).mp hn
        rw [parseU64_ok_iff.mpr ⟨hnumeral, hlt⟩] at hread
        cases hread
      simp [hnone]
  | ok n =>
      obtain ⟨hnumeral, hlt⟩ := parseU64_ok_iff.mp hread
      have hn : Numbered s n unit := (hnumbered n unit).mpr ⟨hlt, rfl, hnumeral⟩
      have hthis : ∀ n' u, Numbered s n' u ↔ n' = n ∧ u = unit := by
        intro n' u
        constructor
        · intro hn'
          exact hn'.unique hn
        · rintro ⟨rfl, rfl⟩
          exact hn
      simp only [map_ok_iff, ne_eq, map_error_iff, hthis, and_assoc, exists_and_left,
        exists_eq_left, not_le]
      exact mulU64_exact_iff

/-- The interval is zero, so that no rotation starts. -/
example : parseDuration .release "1152921504606846976h" = .ok (.ok 0) := by decide

/-- There is a number of hours that neither build reads exactly. -/
theorem hours_beyond_64_bits : ¬ ∃ profile, ∀ s, ReadsExactly profile s := by
  rintro ⟨profile, h⟩
  obtain ⟨hok, hpanic⟩ := h "1152921504606846976h"
  cases profile with
  | debug => exact hpanic (by decide)
  | release =>
      obtain ⟨n, unit, hn, _, hzero⟩ := (hok 0).mp (by decide)
      have hhours : Numbered "1152921504606846976h" 1152921504606846976 3600 :=
        ⟨by decide, "1152921504606846976".toList,
          ⟨_, .inl rfl, by decide, List.all_eq_true.mp (by decide), by decide⟩,
          .inl ⟨by decide, rfl⟩⟩
      obtain ⟨rfl, rfl⟩ := hn.unique hhours
      cases hzero

end CivicConnect.Odns
