import Mathlib.Algebra.Group.Nat.Defs
import Mathlib.Algebra.Ring.Int.Defs
import Mathlib.Data.List.Basic

/-!
# The form of an email address

`Validate_Email` goes through a string once and keeps the place of the `@`. Its
last test compares that place with the ends of the string, whatever the index
range is; the places of the dots are not kept.
-/

namespace CivicConnect.AdaCore

/-- A `String`, with its index range. Only the range of a string with no
characters may begin elsewhere than at a positive number. -/
structure AdaString where
  first : ℤ
  last : ℤ
  chars : List Char
  length_chars : chars.length = (last - first + 1).toNat
  index_range : chars ≠ [] → 1 ≤ first ∧ last ≤ 2 ^ 31 - 1

def maxEmailLength : ℕ := 254

/-- The variables of the loop. -/
structure EmailScan where
  atFound : Bool
  dotFound : Bool
  atPosition : ℤ
  deriving DecidableEq, Repr

namespace EmailScan

def initial : EmailScan := ⟨false, false, 0⟩

/-- One turn of the loop, unless it returns: at a second `@`. -/
def turn (s : EmailScan) (i : ℤ) (c : Char) : Option EmailScan :=
  if c = '@' then
    if s.atFound then none
    else some { s with atFound := true, atPosition := i }
  else if c = '.' ∧ s.atFound then some { s with dotFound := true }
  else some s

/-- The turns for the characters from the index `i` on. -/
def run (s : EmailScan) (i : ℤ) : List Char → Option EmailScan
  | [] => some s
  | c :: cs => (s.turn i c).bind fun s' => s'.run (i + 1) cs

theorem run_append (s : EmailScan) (i : ℤ) (cs ds : List Char) :
    s.run i (cs ++ ds) = (s.run i cs).bind fun s' => s'.run (i + cs.length) ds := by
  induction cs generalizing i s with
  | nil => simp [run]
  | cons c cs ih =>
      rw [List.cons_append, run, run]
      cases s.turn i c with
      | none => rfl
      | some s' =>
          have hindex : i + 1 + (cs.length : ℤ) = i + ((c :: cs).length : ℤ) := by
            rw [List.length_cons]
            omega
          rw [Option.bind_some, Option.bind_some, ih, hindex]

/-- Before the `@` nothing is kept. -/
theorem run_before {cs : List Char} (hcs : '@' ∉ cs) {s : EmailScan} (hs : s.atFound = false)
    (i : ℤ) : s.run i cs = some s := by
  induction cs generalizing i with
  | nil => rfl
  | cons c cs ih =>
      obtain ⟨hc, hrest⟩ := not_or.mp (fun h => hcs (List.mem_cons.mpr h))
      have hturn : s.turn i c = some s := by simp [turn, Ne.symm hc, hs]
      rw [run, hturn, Option.bind_some, ih hrest]

/-- After the `@` a dot is noted, wherever it stands. -/
theorem run_after {cs : List Char} (hcs : '@' ∉ cs) {s : EmailScan} (hs : s.atFound = true)
    (i : ℤ) : s.run i cs = some { s with dotFound := s.dotFound || decide ('.' ∈ cs) } := by
  induction cs generalizing i s with
  | nil => simp [run]
  | cons c cs ih =>
      obtain ⟨hc, hrest⟩ := not_or.mp (fun h => hcs (List.mem_cons.mpr h))
      rw [run]
      by_cases hdot : c = '.'
      · have hturn : s.turn i c = some { s with dotFound := true } := by
          simp [turn, hdot, hs]
        rw [hturn, Option.bind_some, ih hrest (s := { s with dotFound := true }) hs]
        simp [hdot]
      · have hturn : s.turn i c = some s := by simp [turn, Ne.symm hc, hdot]
        rw [hturn, Option.bind_some, ih hrest hs]
        simp [Ne.symm hdot]

theorem run_second {cs : List Char} (hcs : '@' ∈ cs) {s : EmailScan} (hs : s.atFound = true)
    (i : ℤ) : s.run i cs = none := by
  obtain ⟨before, after, rfl, hbefore⟩ := List.eq_append_cons_of_mem hcs
  rw [run_append, run_after hbefore hs, Option.bind_some, run]
  simp [turn, hs]

end EmailScan

namespace AdaString

def length (e : AdaString) : ℕ := (e.last - e.first + 1).toNat

def validateEmail (e : AdaString) : Bool :=
  if e.length = 0 ∨ e.length > maxEmailLength then false
  else
    match EmailScan.initial.run e.first e.chars with
    | none => false
    | some s =>
        s.atFound && s.dotFound && decide (s.atPosition > e.first) &&
          decide (s.atPosition < e.last - 1)

/-- The text has one `@`, between the given parts. -/
def Parts (chars localPart domain : List Char) : Prop :=
  chars = localPart ++ '@' :: domain ∧ '@' ∉ localPart ∧ '@' ∉ domain

/-- A dot that is neither the first nor the last character. -/
def InnerDot (domain : List Char) : Prop :=
  ∃ before after, before ≠ [] ∧ after ≠ [] ∧ domain = before ++ '.' :: after

/-- Two characters or more, among which a dot, but dots at the ends only. -/
def DotsAtEnds (domain : List Char) : Prop :=
  2 ≤ domain.length ∧ '.' ∈ domain ∧ ¬ InnerDot domain

variable {e : AdaString} {localPart domain : List Char}

theorem chars_length (e : AdaString) : e.chars.length = e.length := e.length_chars

theorem Parts.unique {chars localPart' domain' : List Char} (h : Parts chars localPart domain)
    (h' : Parts chars localPart' domain') : localPart = localPart' ∧ domain = domain' := by
  obtain ⟨heq, hlocal, hdomain⟩ := h
  have hsame := (List.append_cons_inj_of_notMem hlocal hdomain).mp (heq.symm.trans h'.1)
  exact ⟨hsame.1, hsame.2.2⟩

theorem turn_initial_at (i : ℤ) : EmailScan.initial.turn i '@' = some ⟨true, false, i⟩ := rfl

/-- At the end of a text with one `@` its place is known, and whether a dot
follows it. -/
theorem run_parts (h : Parts e.chars localPart domain) :
    EmailScan.initial.run e.first e.chars =
      some ⟨true, decide ('.' ∈ domain), e.first + localPart.length⟩ := by
  obtain ⟨hchars, hlocal, hdomain⟩ := h
  rw [hchars, EmailScan.run_append, EmailScan.run_before hlocal rfl, Option.bind_some,
    EmailScan.run, turn_initial_at, Option.bind_some, EmailScan.run_after hdomain rfl]
  simp

theorem run_eq_none (hat : '@' ∈ e.chars) (h : ∀ l d, ¬ Parts e.chars l d) :
    EmailScan.initial.run e.first e.chars = none := by
  obtain ⟨before, after, hchars, hbefore⟩ := List.eq_append_cons_of_mem hat
  have hsecond : '@' ∈ after := by
    by_contra hafter
    exact h before after ⟨hchars, hbefore, hafter⟩
  rw [hchars, EmailScan.run_append, EmailScan.run_before hbefore rfl, Option.bind_some,
    EmailScan.run, turn_initial_at, Option.bind_some, EmailScan.run_second hsecond rfl]

/-- In a string with one `@` the two comparisons of its place are comparisons of
the lengths of the parts. -/
theorem position_iff (h : Parts e.chars localPart domain) :
    (e.first + localPart.length > e.first ↔ localPart ≠ []) ∧
      (e.first + localPart.length < e.last - 1 ↔ 2 ≤ domain.length) := by
  have hlength : e.length = localPart.length + (domain.length + 1) := by
    rw [← chars_length, h.1, List.length_append, List.length_cons]
  rw [length] at hlength
  rw [← List.length_pos_iff]
  omega

/-- What the function accepts. -/
theorem validateEmail_iff :
    e.validateEmail = true ↔ (1 ≤ e.length ∧ e.length ≤ maxEmailLength) ∧
      ∃ l d, Parts e.chars l d ∧ l ≠ [] ∧ '.' ∈ d ∧ 2 ≤ d.length := by
  unfold validateEmail
  split
  · next hlength =>
      refine iff_of_false nofun fun h => ?_
      omega
  · next hlength =>
      have hbounds : 1 ≤ e.length ∧ e.length ≤ maxEmailLength := by omega
      by_cases hparts : ∃ l d, Parts e.chars l d
      · obtain ⟨l, d, h⟩ := hparts
        obtain ⟨hfirst, hlast⟩ := position_iff h
        rw [run_parts h]
        simp only [Bool.true_and, Bool.and_eq_true, decide_eq_true_eq, hfirst, hlast]
        constructor
        · rintro ⟨⟨hdot, hlocal⟩, hdomain⟩
          exact ⟨hbounds, l, d, h, hlocal, hdot, hdomain⟩
        · rintro ⟨_, l', d', h', hlocal, hdot, hdomain⟩
          obtain ⟨rfl, rfl⟩ := h.unique h'
          exact ⟨⟨hdot, hlocal⟩, hdomain⟩
      · have hnone : ¬ ∃ l d, Parts e.chars l d ∧ l ≠ [] ∧ '.' ∈ d ∧ 2 ≤ d.length :=
          fun ⟨l, d, h, _⟩ => hparts ⟨l, d, h⟩
        refine iff_of_false ?_ fun h => hnone h.2
        by_cases hat : '@' ∈ e.chars
        · rw [run_eq_none hat fun l d h => hparts ⟨l, d, h⟩]
          exact Bool.false_ne_true
        · rw [EmailScan.run_before hat rfl]
          exact Bool.false_ne_true

theorem InnerDot.mem (h : InnerDot domain) : '.' ∈ domain ∧ 2 ≤ domain.length := by
  obtain ⟨before, after, hbefore, hafter, rfl⟩ := h
  rw [← List.length_pos_iff] at hbefore hafter
  refine ⟨List.mem_append_right _ List.mem_cons_self, ?_⟩
  rw [List.length_append, List.length_cons]
  omega

/-- The address shape is decided rightly unless the only fault of the text is
that the dots of its domain stand at the ends. -/
theorem validateEmail_shape_iff (e : AdaString) :
    (e.validateEmail = true ↔ (1 ≤ e.length ∧ e.length ≤ maxEmailLength) ∧
        ∃ l d, Parts e.chars l d ∧ l ≠ [] ∧ InnerDot d) ↔
      ¬ ((1 ≤ e.length ∧ e.length ≤ maxEmailLength) ∧
        ∃ l d, Parts e.chars l d ∧ l ≠ [] ∧ DotsAtEnds d) := by
  rw [validateEmail_iff]
  constructor
  · rintro h ⟨hbounds, l, d, hparts, hlocal, hlength, hdot, hends⟩
    obtain ⟨_, l', d', hparts', _, hinner⟩ := h.mp ⟨hbounds, l, d, hparts, hlocal, hdot, hlength⟩
    obtain ⟨rfl, rfl⟩ := hparts.unique hparts'
    exact hends hinner
  · intro h
    refine and_congr_right fun hbounds => ?_
    constructor
    · rintro ⟨l, d, hparts, hlocal, hdot, hlength⟩
      refine ⟨l, d, hparts, hlocal, ?_⟩
      by_contra hinner
      exact h ⟨hbounds, l, d, hparts, hlocal, hlength, hdot, hinner⟩
    · rintro ⟨l, d, hparts, hlocal, hinner⟩
      exact ⟨l, d, hparts, hlocal, hinner.mem.1, hinner.mem.2⟩

/-- A text with the index range that a literal has. -/
def literal (chars : List Char) (h : chars.length < 2 ^ 31) : AdaString where
  first := 1
  last := chars.length
  chars := chars
  length_chars := by omega
  index_range := fun _ => by omega

/-- The address `a@.com` is accepted. -/
theorem leading_dot_accepted :
    ¬ ∀ e : AdaString, e.validateEmail = true ↔
      (1 ≤ e.length ∧ e.length ≤ maxEmailLength) ∧
        ∃ l d, Parts e.chars l d ∧ l ≠ [] ∧ InnerDot d := by
  intro h
  have haccepted := (h (literal "a@.com".toList (by decide))).mp (by decide)
  obtain ⟨_, l, d, hparts, _, hinner⟩ := haccepted
  have hsplit : Parts "a@.com".toList ['a'] ".com".toList := ⟨by decide, by decide, by decide⟩
  obtain ⟨rfl, rfl⟩ := hsplit.unique hparts
  obtain ⟨before, after, hbefore, _, hdomain⟩ := hinner
  -- The only dot is the first character.
  have hfirst : [] ++ '.' :: "com".toList = before ++ '.' :: after := hdomain
  rw [List.append_cons_inj_of_notMem (by decide) (by decide)] at hfirst
  exact hbefore hfirst.1.symm

end AdaString

end CivicConnect.AdaCore
