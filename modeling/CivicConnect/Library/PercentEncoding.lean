import CivicConnect.Library.Hex
import Mathlib.Data.Nat.Digits.Defs

/-!
# Percent encoding

A byte is written as itself where its character is kept, and else as a percent
sign and two upper case hexadecimal digits. Reading takes digits of either case;
a character that is no escape stands for its own bytes, and a text is a string
again only if its bytes are well formed UTF-8.
-/

namespace PercentEncoding

def upperHexDigit (n : ℕ) : Char := (Nat.digitChar n).toUpper

def encodeByte (keep : Char → Bool) (b : UInt8) : List Char :=
  if keep (Char.ofNat b.toNat) then [Char.ofNat b.toNat]
  else ['%', upperHexDigit (b.toNat / 16), upperHexDigit (b.toNat % 16)]

def encode (keep : Char → Bool) (bytes : Bytes) : List Char := bytes.flatMap (encodeByte keep)

def decodeBytes : List Char → Option Bytes
  | [] => some []
  | '%' :: high :: low :: rest => do
      let high ← Hex.value high
      let low ← Hex.value low
      let bytes ← decodeBytes rest
      return UInt8.ofNat (high * 16 + low) :: bytes
  | c :: rest =>
      if c = '%' then none else (decodeBytes rest).map (String.utf8EncodeChar c ++ ·)

/-- The string with these bytes. -/
def ofUTF8 (bytes : Bytes) : Option String := String.fromUTF8? bytes.toByteArray

def decode (s : String) : Option String := (decodeBytes s.toList).bind ofUTF8

variable {keep : Char → Bool}

theorem value_upperHexDigit : ∀ n < 16, Hex.value (upperHexDigit n) = some n := by decide

/-- The characters that a URL carries as they are, wherever they stand. -/
def unreserved (c : Char) : Bool := c.isAlphanum ∨ c = '-' ∨ c = '.' ∨ c = '_' ∨ c = '~'

/-- A kept character is an ASCII character, and no percent sign. -/
def Plain (keep : Char → Bool) : Prop := ∀ c, keep c = true → c.toNat < 128 ∧ c ≠ '%'

theorem plain_unreserved : Plain unreserved := by
  intro c hc
  have hc' : c.isAlphanum ∨ c = '-' ∨ c = '.' ∨ c = '_' ∨ c = '~' := of_decide_eq_true hc
  rcases hc' with hletter | rfl | rfl | rfl | rfl
  · constructor
    · change ((decide (_ ∧ c.val ≤ 'Z'.val) || (_ && decide (c.val ≤ 'z'.val))) ||
        (_ && decide (c.val ≤ '9'.val))) = true at hletter
      simp only [Bool.or_eq_true, Bool.and_eq_true, decide_eq_true_eq,
        UInt32.le_iff_toNat_le] at hletter
      change c.val.toNat < 128
      rcases hletter with (⟨_, hle⟩ | ⟨_, hle⟩) | ⟨_, hle⟩
      · exact lt_of_le_of_lt hle (by decide)
      · exact lt_of_le_of_lt hle (by decide)
      · exact lt_of_le_of_lt hle (by decide)
    · rintro rfl
      exact absurd hletter (by decide)
  · decide
  · decide
  · decide
  · decide

theorem unreserved_upperHexDigit : ∀ n < 16, unreserved (upperHexDigit n) = true := by decide

/-- What an encoding is written with. -/
theorem mem_encode_unreserved {c : Char} {bytes : Bytes} (h : c ∈ encode unreserved bytes) :
    unreserved c = true ∨ c = '%' := by
  obtain ⟨b, _, hb⟩ := List.mem_flatMap.mp h
  have hlt := b.toNat_lt
  rw [encodeByte] at hb
  split at hb
  · next hkept =>
      rw [List.mem_singleton.mp hb]
      exact .inl hkept
  · simp only [List.mem_cons, List.not_mem_nil, or_false] at hb
    rcases hb with rfl | rfl | rfl
    · exact .inr rfl
    · exact .inl (unreserved_upperHexDigit _ (by omega))
    · exact .inl (unreserved_upperHexDigit _ (by omega))

theorem decodeBytes_cons_ne {c : Char} (hc : c ≠ '%') (rest : List Char) :
    decodeBytes (c :: rest) = (decodeBytes rest).map (String.utf8EncodeChar c ++ ·) := by
  rw [decodeBytes]
  · rw [if_neg hc]
  · rintro _ _ _ rfl
    exact absurd rfl hc

theorem utf8EncodeChar_ofNat {b : UInt8} (h : (Char.ofNat b.toNat).toNat < 128) :
    String.utf8EncodeChar (Char.ofNat b.toNat) = [b] := by
  have hb := b.toNat_lt
  have hnat : (Char.ofNat b.toNat).toNat = b.toNat := by
    rw [Char.ofNat, dif_pos (Or.inl (by omega))]
    rfl
  have hsize : (Char.ofNat b.toNat).utf8Size = 1 := by
    rw [Char.utf8Size_eq_one_iff]
    exact UInt32.le_iff_toNat_le.mpr (Nat.le_of_lt_succ h)
  rw [String.utf8EncodeChar_eq_singleton hsize]
  refine congrArg (fun byte => [byte]) (UInt8.toNat_inj.mp ?_)
  rw [UInt32.toNat_toUInt8]
  change (Char.ofNat b.toNat).toNat % 256 = b.toNat
  rw [hnat, Nat.mod_eq_of_lt hb]

theorem decodeBytes_encodeByte (hkeep : Plain keep) (b : UInt8) (rest : List Char) :
    decodeBytes (encodeByte keep b ++ rest) = (decodeBytes rest).map (b :: ·) := by
  rw [encodeByte]
  split
  · next hb =>
      obtain ⟨hascii, hpercent⟩ := hkeep _ hb
      rw [List.singleton_append, decodeBytes_cons_ne hpercent, utf8EncodeChar_ofNat hascii]
      rfl
  · have hb := b.toNat_lt
    have hhigh := value_upperHexDigit (b.toNat / 16) (by omega)
    have hlow := value_upperHexDigit (b.toNat % 16) (by omega)
    have hbyte : UInt8.ofNat (b.toNat / 16 * 16 + b.toNat % 16) = b := by
      rw [Nat.div_add_mod', UInt8.ofNat_toNat]
    rw [List.cons_append, List.cons_append, List.cons_append, List.nil_append, decodeBytes, hhigh,
      hlow]
    simp only [Option.bind_eq_bind, Option.bind_some, hbyte]
    cases decodeBytes rest <;> rfl

theorem decodeBytes_encode (hkeep : Plain keep) (bytes : Bytes) :
    decodeBytes (encode keep bytes) = some bytes := by
  induction bytes with
  | nil => rfl
  | cons b bytes ih =>
      have hcons : encode keep (b :: bytes) = encodeByte keep b ++ encode keep bytes :=
        List.flatMap_cons
      rw [hcons, decodeBytes_encodeByte hkeep, ih]
      rfl

/-- The bytes of a string. -/
def utf8 (s : String) : Bytes := s.toUTF8.toList

theorem toList_eq_data (bytes : ByteArray) : bytes.toList = bytes.data.toList := by
  have hloop : ∀ i read, ByteArray.toList.loop bytes i read =
      read.reverse ++ bytes.data.toList.drop i := by
    intro i read
    fun_induction ByteArray.toList.loop bytes i read with
    | case1 i read h ih =>
        have hlt : i < bytes.data.toList.length := by simpa using h
        rw [ih, List.drop_eq_getElem_cons hlt]
        simp [ByteArray.get!, h]
    | case2 i read h =>
        have hge : bytes.data.toList.length ≤ i := by simpa using h
        rw [List.drop_eq_nil_of_le hge, List.append_nil]
  exact hloop 0 []

theorem ofUTF8_utf8 (s : String) : ofUTF8 (utf8 s) = some s := by
  have hbytes : (utf8 s).toByteArray = s.toUTF8 := by
    rw [utf8, toList_eq_data]
    exact ByteArray.ext List.data_toByteArray
  rw [ofUTF8, hbytes]
  exact dif_pos s.isValidUTF8

theorem utf8_eq_flatMap (s : String) : utf8 s = s.toList.flatMap String.utf8EncodeChar := by
  rw [utf8, toList_eq_data]
  change s.toByteArray.data.toList = _
  rw [← String.utf8Encode_toList, List.utf8Encode, List.data_toByteArray]

/-- A text of kept characters is its own encoding. -/
theorem encode_kept (hkeep : Plain keep) {s : String} (h : ∀ c ∈ s.toList, keep c = true) :
    encode keep (utf8 s) = s.toList := by
  rw [utf8_eq_flatMap]
  generalize s.toList = cs at h
  induction cs with
  | nil => rfl
  | cons c cs ih =>
      have hc := h c List.mem_cons_self
      have hbyte : encode keep (String.utf8EncodeChar c) = [c] := by
        have hnat : (UInt8.ofNat c.toNat).toNat = c.toNat := by
          have hlt := (hkeep c hc).1
          rw [UInt8.toNat_ofNat']
          omega
        have hchar : Char.ofNat (UInt8.ofNat c.toNat).toNat = c := by
          rw [hnat, Char.ofNat_toNat]
        have hascii : (Char.ofNat (UInt8.ofNat c.toNat).toNat).toNat < 128 := by
          rw [hchar]
          exact (hkeep c hc).1
        have hsingle := utf8EncodeChar_ofNat hascii
        rw [hchar] at hsingle
        rw [hsingle, encode, List.flatMap_singleton, encodeByte, hchar, if_pos hc]
      have happend : encode keep (String.utf8EncodeChar c ++ cs.flatMap String.utf8EncodeChar) =
          encode keep (String.utf8EncodeChar c) ++
            encode keep (cs.flatMap String.utf8EncodeChar) := List.flatMap_append
      rw [List.flatMap_cons, happend, hbyte, ih fun x hx => h x (List.mem_cons_of_mem c hx)]
      rfl

theorem decode_encode (hkeep : Plain keep) (s : String) :
    decode (String.ofList (encode keep (utf8 s))) = some s := by
  rw [decode, String.toList_ofList, decodeBytes_encode hkeep, Option.bind_some, ofUTF8_utf8]

end PercentEncoding
