import CivicConnect.Library.Bytes

/-!
# Hexadecimal text

A byte is written as two lower case digits. Reading takes digits of either case,
and an even number of them.
-/

namespace Hex

def value (c : Char) : Option ℕ :=
  if '0' ≤ c ∧ c ≤ '9' then some (c.toNat - '0'.toNat)
  else if 'a' ≤ c ∧ c ≤ 'f' then some (c.toNat - 'a'.toNat + 10)
  else if 'A' ≤ c ∧ c ≤ 'F' then some (c.toNat - 'A'.toNat + 10)
  else none

def digit (n : ℕ) : Char := Nat.digitChar n

def encode (bytes : Bytes) : List Char :=
  bytes.flatMap fun b => [digit (b.toNat / 16), digit (b.toNat % 16)]

def decode : List Char → Option Bytes
  | [] => some []
  | [_] => none
  | high :: low :: rest => do
      let high ← value high
      let low ← value low
      let bytes ← decode rest
      return UInt8.ofNat (high * 16 + low) :: bytes

/-- The digits that are written. -/
def digits : List Char := "0123456789abcdef".toList

theorem value_digit : ∀ n < 16, value (digit n) = some n := by decide

@[simp] theorem encode_cons (b : UInt8) (bytes : Bytes) : encode (b :: bytes) =
    digit (b.toNat / 16) :: digit (b.toNat % 16) :: encode bytes := rfl

theorem encode_append (bytes bytes' : Bytes) :
    encode (bytes ++ bytes') = encode bytes ++ encode bytes' := List.flatMap_append

theorem length_encode (bytes : Bytes) : (encode bytes).length = 2 * bytes.length := by
  induction bytes with
  | nil => rfl
  | cons b bytes ih =>
      rw [encode_cons, List.length_cons, List.length_cons, ih, List.length_cons]
      omega

theorem drop_encode (n : ℕ) (bytes : Bytes) :
    (encode bytes).drop (2 * n) = encode (bytes.drop n) := by
  induction n generalizing bytes with
  | zero => rfl
  | succ n ih =>
      cases bytes with
      | nil => simp [encode]
      | cons b bytes => exact ih bytes

theorem decode_encode (bytes : Bytes) : decode (encode bytes) = some bytes := by
  induction bytes with
  | nil => rfl
  | cons b bytes ih =>
      have hb := b.toNat_lt
      have hhigh := value_digit (b.toNat / 16) (by omega)
      have hlow := value_digit (b.toNat % 16) (by omega)
      have hsum : b.toNat / 16 * 16 + b.toNat % 16 = b.toNat := by omega
      rw [encode_cons, decode, hhigh, hlow, ih]
      simp only [Option.bind_eq_bind, Option.bind_some, hsum, UInt8.ofNat_toNat]
      rfl

theorem encode_injective : Function.Injective encode := by
  intro bytes bytes' h
  have hread := decode_encode bytes
  rw [h, decode_encode] at hread
  exact (Option.some.inj hread).symm

theorem mem_digits_iff {c : Char} : c ∈ digits ↔ ∃ n < 16, digit n = c := by
  have hdigits : digits = (List.range 16).map digit := rfl
  simp only [hdigits, List.mem_map, List.mem_range]

theorem mem_digits_of_mem_encode {bytes : Bytes} {c : Char} (h : c ∈ encode bytes) :
    c ∈ digits := by
  obtain ⟨b, _, hc⟩ := List.mem_flatMap.mp h
  have hb := b.toNat_lt
  rcases List.mem_cons.mp hc with rfl | hc
  · exact mem_digits_iff.mpr ⟨_, by omega, rfl⟩
  · rw [List.mem_singleton.mp hc]
    exact mem_digits_iff.mpr ⟨_, by omega, rfl⟩

/-- Text of `2 * n` lower case digits is the text of `n` bytes. -/
theorem exists_encode {n : ℕ} {cs : List Char} (hlength : cs.length = 2 * n)
    (hdigits : ∀ c ∈ cs, c ∈ digits) : ∃ bytes : Bytes, bytes.length = n ∧ encode bytes = cs := by
  induction n generalizing cs with
  | zero => exact ⟨[], rfl, (List.length_eq_zero_iff.mp hlength).symm⟩
  | succ n ih =>
      match cs, hlength with
      | high :: low :: rest, hlength =>
          obtain ⟨m, hm, rfl⟩ := mem_digits_iff.mp (hdigits high (by simp))
          obtain ⟨k, hk, rfl⟩ := mem_digits_iff.mp (hdigits low (by simp))
          have hrest : rest.length = 2 * n := by
            rw [List.length_cons, List.length_cons] at hlength
            omega
          obtain ⟨bytes, hbytes, rfl⟩ := ih hrest fun c hc => hdigits c (by simp [hc])
          have hsmall : (UInt8.ofNat (m * 16 + k)).toNat = m * 16 + k := by
            rw [UInt8.toNat_ofNat']
            omega
          refine ⟨UInt8.ofNat (m * 16 + k) :: bytes, by simp [hbytes], ?_⟩
          rw [encode_cons, hsmall]
          have hdiv : (m * 16 + k) / 16 = m := by omega
          have hmod : (m * 16 + k) % 16 = k := by omega
          rw [hdiv, hmod]

/-- An engine of a library for hexadecimal text, which says why it refuses one. -/
structure Engine where
  DecodeError : Type
  display : DecodeError → String
  encode : Bytes → String
  decode : String → Except DecodeError Bytes
  toList_encode : ∀ bytes, (encode bytes).toList = Hex.encode bytes
  decode_ok_iff : ∀ text bytes, decode text = .ok bytes ↔ Hex.decode text.toList = some bytes

namespace Engine

variable (engine : Engine)

theorem encode_injective : Function.Injective engine.encode := by
  intro bytes bytes' h
  apply Hex.encode_injective
  rw [← engine.toList_encode, h, engine.toList_encode]

theorem length_encode (bytes : Bytes) : (engine.encode bytes).length = 2 * bytes.length := by
  rw [← String.length_toList, engine.toList_encode, Hex.length_encode]

/-- Texts that are written one behind the other are read as one. -/
theorem decode_append (bytes bytes' : Bytes) :
    engine.decode (engine.encode bytes ++ engine.encode bytes') = .ok (bytes ++ bytes') := by
  rw [engine.decode_ok_iff, String.toList_append, engine.toList_encode, engine.toList_encode,
    ← encode_append, decode_encode]

end Engine

/-- The functions above as an engine. -/
def engine : Engine where
  DecodeError := Unit
  display _ := "Odd number of digits"
  encode bytes := String.ofList (encode bytes)
  decode text :=
    match decode text.toList with
    | some bytes => .ok bytes
    | none => .error ()
  toList_encode _ := String.toList_ofList
  decode_ok_iff text bytes := by
    cases decode text.toList with
    | none => simp
    | some read => simp

end Hex
