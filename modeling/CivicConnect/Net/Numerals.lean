import CivicConnect.Net.IpAddr
import Mathlib.Algebra.Order.Ring.Nat
import Mathlib.Data.List.DropRight
import Mathlib.Tactic.Ring

/-!
# Integers read from texts

`trim` and, for an unsigned type, `from_str_radix` of the Rust standard library:
an optional plus sign and at least one digit. The check against the limit is made
at each digit, so that of two faults the first one is reported.
-/

namespace CivicConnect.Net

/-- The Unicode property `White_Space`. -/
def isWhitespace (c : Char) : Bool :=
  let n := c.toNat
  (9 ≤ n && n ≤ 13) || n = 0x20 || n = 0x85 || n = 0xa0 || n = 0x1680 ||
    (0x2000 ≤ n && n ≤ 0x200a) || n = 0x2028 || n = 0x2029 || n = 0x202f || n = 0x205f ||
    n = 0x3000

def trim (cs : List Char) : List Char := (cs.dropWhile isWhitespace).rdropWhile isWhitespace

inductive IntErrorKind where
  | empty
  | invalidDigit
  | posOverflow
  deriving DecidableEq, Repr

def IntErrorKind.display : IntErrorKind → String
  | empty => "cannot parse integer from empty string"
  | invalidDigit => "invalid digit found in string"
  | posOverflow => "number too large to fit in target type"

def accumulate (radix limit : ℕ) : ℕ → List Char → Except IntErrorKind ℕ
  | result, [] => .ok result
  | result, c :: cs =>
      match toDigit radix c with
      | none => .error .invalidDigit
      | some x =>
          if result * radix + x ≤ limit then accumulate radix limit (result * radix + x) cs
          else .error .posOverflow

def fromStrRadix (radix limit : ℕ) : List Char → Except IntErrorKind ℕ
  | [] => .error .empty
  | ['+'] => .error .invalidDigit
  | ['-'] => .error .invalidDigit
  | '+' :: digits => accumulate radix limit 0 digits
  | digits => accumulate radix limit 0 digits

/-- Digits, at least one, after an optional plus sign. -/
def IsNumeral (radix : ℕ) (cs : List Char) (n : ℕ) : Prop :=
  ∃ digits, (cs = digits ∨ cs = '+' :: digits) ∧ digits ≠ [] ∧
    (∀ c ∈ digits, isDigit radix c = true) ∧ digitsValue radix digits = n

variable {radix limit result n : ℕ} {cs : List Char}

theorem toDigit_lt {c : Char} {x : ℕ} (h : toDigit radix c = some x) : x < radix :=
  of_decide_eq_true (Option.filter_eq_some_iff.mp h).2

theorem isDigit_eq_true_iff {c : Char} : isDigit radix c = true ↔ ∃ x, toDigit radix c = some x :=
  Option.isSome_iff_exists

theorem isDigit_plus : isDigit radix '+' = false := rfl

theorem isDigit_minus : isDigit radix '-' = false := rfl

theorem isDigit_ascii {c : Char} (h : isDigit radix c = true) : c.toNat < 128 := by
  obtain ⟨x, hx⟩ := isDigit_eq_true_iff.mp h
  have hvalue := (Option.filter_eq_some_iff.mp hx).1
  split at hvalue
  · next hdigit => exact hdigit.2.trans_lt (by decide)
  · split at hvalue
    · next hlower => exact hlower.2.trans_lt (by decide)
    · split at hvalue
      · next hupper => exact hupper.2.trans_lt (by decide)
      · cases hvalue

/-- A text of ASCII characters has as many bytes as characters. -/
theorem utf8ByteSize_ofList_ascii (h : ∀ c ∈ cs, c.toNat < 128) :
    (String.ofList cs).utf8ByteSize = cs.length := by
  induction cs with
  | nil => rfl
  | cons c cs ih =>
      have hsize : c.utf8Size = 1 := if_pos (Nat.le_of_lt_succ (h c List.mem_cons_self))
      rw [← List.singleton_append, String.ofList_append, String.utf8ByteSize_append,
        ← String.singleton_eq_ofList, String.utf8ByteSize_singleton, hsize,
        ih fun d hd => h d (List.mem_cons_of_mem c hd), List.length_append,
        List.length_singleton]

/-- The value of digits that follow others. -/
theorem foldl_digits (radix result : ℕ) (cs : List Char) :
    cs.foldl (fun acc c => acc * radix + (toDigit radix c).getD 0) result =
      result * radix ^ cs.length + digitsValue radix cs := by
  induction cs generalizing result with
  | nil => simp [digitsValue]
  | cons c cs ih =>
      have hvalue : digitsValue radix (c :: cs) =
          (0 * radix + (toDigit radix c).getD 0) * radix ^ cs.length + digitsValue radix cs := ih _
      rw [List.foldl_cons, ih, hvalue, List.length_cons, pow_succ]
      ring

theorem digitsValue_cons (c : Char) (cs : List Char) :
    digitsValue radix (c :: cs) =
      (toDigit radix c).getD 0 * radix ^ cs.length + digitsValue radix cs := by
  rw [digitsValue, List.foldl_cons, foldl_digits, zero_mul, zero_add]

theorem digitsValue_lt (h : ∀ c ∈ cs, isDigit radix c = true) :
    digitsValue radix cs < radix ^ cs.length := by
  induction cs with
  | nil => exact Nat.one_pos
  | cons c cs ih =>
      obtain ⟨x, hx⟩ := isDigit_eq_true_iff.mp (h c List.mem_cons_self)
      have hrest := ih fun d hd => h d (List.mem_cons_of_mem c hd)
      have hdigit : (x + 1) * radix ^ cs.length ≤ radix * radix ^ cs.length :=
        Nat.mul_le_mul_right _ (toDigit_lt hx)
      rw [digitsValue_cons, hx, Option.getD_some, List.length_cons, pow_succ']
      calc x * radix ^ cs.length + digitsValue radix cs
          < x * radix ^ cs.length + radix ^ cs.length := Nat.add_lt_add_left hrest _
        _ = (x + 1) * radix ^ cs.length := (Nat.succ_mul x _).symm
        _ ≤ radix * radix ^ cs.length := hdigit

theorem accumulate_ok_iff (hradix : 0 < radix) (hresult : result ≤ limit) :
    accumulate radix limit result cs = .ok n ↔ (∀ c ∈ cs, isDigit radix c = true) ∧
      result * radix ^ cs.length + digitsValue radix cs = n ∧ n ≤ limit := by
  induction cs generalizing result with
  | nil =>
      simp only [accumulate, Except.ok.injEq, List.not_mem_nil, false_imp_iff, implies_true,
        List.length_nil, pow_zero, mul_one, digitsValue, List.foldl_nil, add_zero, true_and]
      constructor
      · rintro rfl
        exact ⟨rfl, hresult⟩
      · exact And.left
  | cons c cs ih =>
      rw [accumulate]
      cases hx : toDigit radix c with
      | none => simp [isDigit, hx]
      | some x =>
          have hvalue : (result * radix + x) * radix ^ cs.length + digitsValue radix cs =
              result * radix ^ (c :: cs).length + digitsValue radix (c :: cs) := by
            rw [digitsValue_cons, hx, Option.getD_some, List.length_cons, pow_succ']
            ring
          have hgrow : result * radix + x ≤
              (result * radix + x) * radix ^ cs.length + digitsValue radix cs :=
            (Nat.le_mul_of_pos_right _ (Nat.pow_pos hradix)).trans (Nat.le_add_right _ _)
          dsimp only
          split
          · next hfits =>
              rw [ih hfits, hvalue, List.forall_mem_cons, isDigit, hx]
              simp
          · next hlarge =>
              constructor
              · intro hoverflow
                cases hoverflow
              · rintro ⟨_, rfl, hle⟩
                rw [← hvalue] at hle
                exact absurd (hgrow.trans hle) hlarge

theorem accumulate_of_not_digit {c : Char} (h : isDigit radix c = false) :
    accumulate radix limit result (c :: cs) = .error .invalidDigit := by
  have hnone : toDigit radix c = none := by
    simpa [isDigit] using h
  rw [accumulate, hnone]

theorem fromStrRadix_ok_iff_accumulate :
    fromStrRadix radix limit cs = .ok n ↔ ∃ digits, (cs = digits ∨ cs = '+' :: digits) ∧
      digits ≠ [] ∧ accumulate radix limit 0 digits = .ok n := by
  constructor
  · intro h
    unfold fromStrRadix at h
    split at h
    · cases h
    · cases h
    · cases h
    · next digits hne => exact ⟨digits, .inr rfl, hne, h⟩
    · next hne _ _ _ => exact ⟨_, .inl rfl, hne, h⟩
  · rintro ⟨digits, rfl | rfl, hne, h⟩
    · -- A sign at the head would be an invalid digit.
      unfold fromStrRadix
      split
      · exact absurd rfl hne
      · rw [accumulate_of_not_digit isDigit_plus] at h
        cases h
      · rw [accumulate_of_not_digit isDigit_minus] at h
        cases h
      · rw [accumulate_of_not_digit isDigit_plus] at h
        cases h
      · exact h
    · cases digits with
      | nil => exact absurd rfl hne
      | cons c digits => exact h

/-- The texts that are read, with the values they are read as. -/
theorem fromStrRadix_ok_iff (hradix : 0 < radix) :
    fromStrRadix radix limit cs = .ok n ↔ IsNumeral radix cs n ∧ n ≤ limit := by
  rw [fromStrRadix_ok_iff_accumulate]
  simp only [accumulate_ok_iff hradix (Nat.zero_le limit), zero_mul, zero_add, IsNumeral]
  constructor
  · rintro ⟨digits, htext, hne, hall, hvalue, hle⟩
    exact ⟨⟨digits, htext, hne, hall, hvalue⟩, hle⟩
  · rintro ⟨⟨digits, htext, hne, hall, hvalue⟩, hle⟩
    exact ⟨digits, htext, hne, hall, hvalue, hle⟩

end CivicConnect.Net
