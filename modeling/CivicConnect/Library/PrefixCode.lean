import Mathlib.Data.List.Basic

/-!
# Self-delimiting codes

A reader takes one message off the front of a list and hands back the rest, or
fails. When it accepts exactly the lists that begin with the code of a valid
message, a list has at most one decomposition into codes, and reading until
nothing is left finds it.
-/

universe u v

namespace Except

variable {α β : Type u} {ε ε' : Type v}

theorem bind_ok_iff {x : Except ε α} {f : α → Except ε β} {b : β} :
    (do let a ← x; f a) = .ok b ↔ ∃ a, x = .ok a ∧ f a = .ok b := by
  cases x with
  | error err => simp [bind, Except.bind]
  | ok a => simp [bind, Except.bind]

/-- A sequence fails in no way in which neither of its parts fails. -/
theorem bind_ne_error {x : Except ε α} {f : α → Except ε β} {err : ε} (hx : x ≠ .error err)
    (hf : ∀ a, x = .ok a → f a ≠ .error err) : (do let a ← x; f a) ≠ .error err := by
  cases x with
  | error err' => exact fun h => hx (congrArg _ (Except.error.inj h))
  | ok a => exact hf a rfl

@[simp] theorem mapError_ok_iff {x : Except ε α} {f : ε → ε'} {a : α} :
    x.mapError f = .ok a ↔ x = .ok a := by
  cases x with
  | error err => simp [Except.mapError]
  | ok a => simp [Except.mapError]

end Except

namespace PrefixCode

variable {α β : Type u} {ε : Type v}

/-- `read` takes off exactly the codes of valid messages. -/
structure Reads (valid : α → Prop) (encode : α → List β)
    (read : List β → Except ε (α × List β)) : Prop where
  ok_iff : ∀ input a rest, read input = .ok (a, rest) ↔ valid a ∧ input = encode a ++ rest
  ne_nil : ∀ a, valid a → encode a ≠ []

/-- The list is the concatenation of the codes of these messages. -/
def Decomposes (valid : α → Prop) (encode : α → List β) (as : List α) (input : List β) : Prop :=
  (∀ a ∈ as, valid a) ∧ input = as.flatMap encode

/-- Read until nothing is left, at most `n` times. -/
def readAll (read : List β → Except ε (α × List β)) : ℕ → List β → Except ε (List α × List β)
  | 0, input => .ok ([], input)
  | _ + 1, [] => .ok ([], [])
  | n + 1, b :: input => do
      let (a, rest) ← read (b :: input)
      let (as, rest) ← readAll read n rest
      return (a :: as, rest)

variable {valid : α → Prop} {encode : α → List β} {read : List β → Except ε (α × List β)}

theorem Reads.length_lt (h : Reads valid encode read) {input rest : List β} {a : α}
    (hread : read input = .ok (a, rest)) : rest.length < input.length := by
  obtain ⟨hvalid, rfl⟩ := (h.ok_iff _ _ _).mp hread
  have hpos := List.length_pos_iff.mpr (h.ne_nil a hvalid)
  rw [List.length_append]
  omega

theorem readAll_cons_ok_iff {n : ℕ} {b : β} {input rest : List β} {as : List α} :
    readAll read (n + 1) (b :: input) = .ok (as, rest) ↔
      ∃ a middle as', read (b :: input) = .ok (a, middle) ∧
        readAll read n middle = .ok (as', rest) ∧ as = a :: as' := by
  rw [readAll, Except.bind_ok_iff]
  constructor
  · rintro ⟨⟨a, middle⟩, hread, htail⟩
    obtain ⟨⟨as', rest'⟩, hrest, heq⟩ := Except.bind_ok_iff.mp htail
    obtain ⟨rfl, rfl⟩ := Prod.mk.inj (Except.ok.inj heq)
    exact ⟨a, middle, as', hread, hrest, rfl⟩
  · rintro ⟨a, middle, as', hread, hrest, rfl⟩
    exact ⟨(a, middle), hread, Except.bind_ok_iff.mpr ⟨(as', rest), hrest, rfl⟩⟩

theorem decomposes_nil_iff (hne : ∀ a, valid a → encode a ≠ []) (as : List α) :
    Decomposes valid encode as [] ↔ as = [] := by
  cases as with
  | nil => simp [Decomposes]
  | cons a as =>
      have hcode := hne a
      simp [Decomposes]
      tauto

/-- Reading until nothing is left succeeds exactly on the concatenations of
codes, and returns their messages. -/
theorem Reads.readAll_ok_iff (h : Reads valid encode read) {n : ℕ} {input : List β}
    (hn : input.length ≤ n) (as : List α) :
    readAll read n input = .ok (as, []) ↔ Decomposes valid encode as input := by
  induction n generalizing input as with
  | zero =>
      obtain rfl := List.length_eq_zero_iff.mp (Nat.le_zero.mp hn)
      rw [decomposes_nil_iff h.ne_nil]
      simp [readAll, eq_comm]
  | succ n ih =>
      cases input with
      | nil =>
          rw [decomposes_nil_iff h.ne_nil]
          simp [readAll, eq_comm]
      | cons b input =>
          rw [readAll_cons_ok_iff]
          constructor
          · rintro ⟨a, middle, as', hread, hrest, rfl⟩
            have hshort := Nat.lt_of_lt_of_le (h.length_lt hread) hn
            obtain ⟨hvalid, heq⟩ := (h.ok_iff _ _ _).mp hread
            obtain ⟨hvalid', rfl⟩ := (ih (Nat.le_of_lt_succ hshort) as').mp hrest
            exact ⟨by simpa using ⟨hvalid, hvalid'⟩, by simpa using heq⟩
          · rintro ⟨hvalid, heq⟩
            cases as with
            | nil => simp at heq
            | cons a as =>
                obtain ⟨ha, has⟩ := List.forall_mem_cons.mp hvalid
                rw [List.flatMap_cons] at heq
                have hread := (h.ok_iff _ _ _).mpr ⟨ha, heq⟩
                have hshort := Nat.lt_of_lt_of_le (h.length_lt hread) hn
                exact ⟨a, as.flatMap encode, as, hread,
                  (ih (Nat.le_of_lt_succ hshort) as).mpr ⟨has, rfl⟩, rfl⟩

/-- A list has at most one decomposition into codes. -/
theorem Reads.decomposes_unique (h : Reads valid encode read) {as as' : List α}
    {input : List β} (has : Decomposes valid encode as input)
    (has' : Decomposes valid encode as' input) : as = as' := by
  have hread := (h.readAll_ok_iff (Nat.le_refl _) as).mpr has
  rw [(h.readAll_ok_iff (Nat.le_refl _) as').mpr has'] at hread
  exact (congrArg Prod.fst (Except.ok.inj hread)).symm

end PrefixCode
