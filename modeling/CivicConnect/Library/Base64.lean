import CivicConnect.Library.Bytes

/-!
# Base64

The standard alphabet with padding. Three bytes are written as four characters,
and a last group of one or two bytes is filled up with equals signs. The reader
is strict: it wants the padding, and the bits that a last group leaves over must
be zero, so that every byte string has one text.
-/

namespace Base64

def alphabet : List Char :=
  "ABCDEFGHIJKLMNOPQRSTUVWXYZabcdefghijklmnopqrstuvwxyz0123456789+/".toList

def sextetChar (n : ℕ) : Char := alphabet[n]?.getD '='

def sextetValue (c : Char) : Option ℕ := alphabet.idxOf? c

def encode : Bytes → List Char
  | [] => []
  | [a] => [sextetChar (a.toNat / 4), sextetChar (a.toNat % 4 * 16), '=', '=']
  | [a, b] =>
      [sextetChar (a.toNat / 4), sextetChar (a.toNat % 4 * 16 + b.toNat / 16),
        sextetChar (b.toNat % 16 * 4), '=']
  | a :: b :: c :: rest =>
      sextetChar (a.toNat / 4) :: sextetChar (a.toNat % 4 * 16 + b.toNat / 16) ::
        sextetChar (b.toNat % 16 * 4 + c.toNat / 64) :: sextetChar (c.toNat % 64) :: encode rest

/-- A last group that ends in padding. -/
def decodeLast (first second third : Char) : Option Bytes := do
  let w ← sextetValue first
  let x ← sextetValue second
  if third = '=' then
    if x % 16 = 0 then some [UInt8.ofNat (w * 4 + x / 16)] else none
  else do
    let y ← sextetValue third
    if y % 4 = 0 then some [UInt8.ofNat (w * 4 + x / 16), UInt8.ofNat (x % 16 * 16 + y / 4)]
    else none

def decode : List Char → Option Bytes
  | [] => some []
  | first :: second :: third :: fourth :: rest =>
      if fourth = '=' ∧ rest = [] then decodeLast first second third
      else do
        let w ← sextetValue first
        let x ← sextetValue second
        let y ← sextetValue third
        let z ← sextetValue fourth
        let bytes ← decode rest
        return UInt8.ofNat (w * 4 + x / 16) :: UInt8.ofNat (x % 16 * 16 + y / 4) ::
          UInt8.ofNat (y % 4 * 64 + z) :: bytes
  | _ => none

theorem sextetValue_sextetChar : ∀ n < 64, sextetValue (sextetChar n) = some n := by
  decide +kernel

theorem sextetChar_ne : ∀ n < 64, sextetChar n ≠ '=' := by decide +kernel

theorem sextetValue_eq_some_iff {c : Char} {n : ℕ} :
    sextetValue c = some n ↔ n < 64 ∧ sextetChar n = c := by
  constructor
  · intro h
    obtain ⟨hn, hc, _⟩ := List.idxOf?_eq_some_iff.mp h
    refine ⟨hn, ?_⟩
    rw [sextetChar, List.getElem?_eq_getElem hn]
    exact hc
  · rintro ⟨hn, rfl⟩
    exact sextetValue_sextetChar n hn

/-- A last group that is read is one or two bytes, and the characters are those
that the writer makes of them. -/
theorem decodeLast_eq_some_iff {first second third : Char} {bytes : Bytes} :
    decodeLast first second third = some bytes ↔
      (bytes.length = 1 ∨ bytes.length = 2) ∧ encode bytes = [first, second, third, '='] := by
  constructor
  · intro h
    obtain ⟨w, hw, hrest⟩ := Option.bind_eq_some_iff.mp h
    obtain ⟨x, hx, hlast⟩ := Option.bind_eq_some_iff.mp hrest
    clear h hrest
    obtain ⟨hw, rfl⟩ := sextetValue_eq_some_iff.mp hw
    obtain ⟨hx, rfl⟩ := sextetValue_eq_some_iff.mp hx
    have hbyte : (UInt8.ofNat (w * 4 + x / 16)).toNat = w * 4 + x / 16 := by
      rw [UInt8.toNat_ofNat']
      omega
    have hquot : (w * 4 + x / 16) / 4 = w := by omega
    split at hlast
    · next heq =>
        split at hlast
        · next hzero =>
            obtain rfl := Option.some.inj hlast
            have hrem : (w * 4 + x / 16) % 4 * 16 = x := by omega
            refine ⟨Or.inl rfl, ?_⟩
            rw [encode, hbyte, hquot, hrem, heq]
        · cases hlast
    · obtain ⟨y, hy, hthird⟩ := Option.bind_eq_some_iff.mp hlast
      clear hlast
      obtain ⟨hy, rfl⟩ := sextetValue_eq_some_iff.mp hy
      split at hthird
      · next hzero =>
          obtain rfl := Option.some.inj hthird
          have hnext : (UInt8.ofNat (x % 16 * 16 + y / 4)).toNat = x % 16 * 16 + y / 4 := by
            rw [UInt8.toNat_ofNat']
            omega
          have hmid : (w * 4 + x / 16) % 4 * 16 + (x % 16 * 16 + y / 4) / 16 = x := by omega
          have hrem : (x % 16 * 16 + y / 4) % 16 * 4 = y := by omega
          refine ⟨Or.inr rfl, ?_⟩
          rw [encode, hbyte, hnext, hquot, hmid, hrem]
      · cases hthird
  · rintro ⟨hlength, h⟩
    match bytes, hlength with
    | [a], _ =>
        have ha := a.toNat_lt
        rw [encode] at h
        injection h with hw h
        injection h with hx h
        injection h with hy h
        rw [← hw, ← hx, ← hy, decodeLast, sextetValue_sextetChar _ (by omega),
          sextetValue_sextetChar _ (by omega)]
        have hzero : a.toNat % 4 * 16 % 16 = 0 := by omega
        have hbyte : a.toNat / 4 * 4 + a.toNat % 4 * 16 / 16 = a.toNat := by omega
        simp only [Option.bind_eq_bind, Option.bind_some, if_pos, hzero, hbyte,
          UInt8.ofNat_toNat]
    | [a, b], _ =>
        have ha := a.toNat_lt
        have hb := b.toNat_lt
        rw [encode] at h
        injection h with hw h
        injection h with hx h
        injection h with hy h
        have hne := sextetChar_ne (b.toNat % 16 * 4) (by omega)
        rw [← hw, ← hx, ← hy, decodeLast, sextetValue_sextetChar _ (by omega),
          sextetValue_sextetChar _ (by omega), sextetValue_sextetChar _ (by omega)]
        have hzero : b.toNat % 16 * 4 % 4 = 0 := by omega
        have hfirst : a.toNat / 4 * 4 + (a.toNat % 4 * 16 + b.toNat / 16) / 16 = a.toNat := by
          omega
        have hsecond : (a.toNat % 4 * 16 + b.toNat / 16) % 16 * 16 + b.toNat % 16 * 4 / 4 =
            b.toNat := by omega
        simp only [Option.bind_eq_bind, Option.bind_some, if_neg hne, if_pos, hzero, hfirst,
          hsecond, UInt8.ofNat_toNat]

theorem decode_encode (bytes : Bytes) : decode (encode bytes) = some bytes := by
  fun_induction encode bytes with
  | case1 => rfl
  | case2 a =>
      rw [decode, if_pos ⟨rfl, rfl⟩]
      exact decodeLast_eq_some_iff.mpr ⟨Or.inl rfl, rfl⟩
  | case3 a b =>
      rw [decode, if_pos ⟨rfl, rfl⟩]
      exact decodeLast_eq_some_iff.mpr ⟨Or.inr rfl, rfl⟩
  | case4 a b c rest ih =>
      have ha := a.toNat_lt
      have hb := b.toNat_lt
      have hc := c.toNat_lt
      have hne := sextetChar_ne (c.toNat % 64) (by omega)
      have hfirst : a.toNat / 4 * 4 + (a.toNat % 4 * 16 + b.toNat / 16) / 16 = a.toNat := by
        omega
      have hsecond : (a.toNat % 4 * 16 + b.toNat / 16) % 16 * 16 +
          (b.toNat % 16 * 4 + c.toNat / 64) / 4 = b.toNat := by omega
      have hthird : (b.toNat % 16 * 4 + c.toNat / 64) % 4 * 64 + c.toNat % 64 = c.toNat := by
        omega
      rw [decode, if_neg fun h => hne h.1, sextetValue_sextetChar _ (by omega),
        sextetValue_sextetChar _ (by omega), sextetValue_sextetChar _ (by omega),
        sextetValue_sextetChar _ (by omega), ih]
      simp only [Option.bind_eq_bind, Option.bind_some, hfirst, hsecond, hthird,
        UInt8.ofNat_toNat]
      rfl

theorem encode_of_decode {cs : List Char} {bytes : Bytes} (h : decode cs = some bytes) :
    encode bytes = cs := by
  fun_induction decode cs generalizing bytes with
  | case1 =>
      obtain rfl := Option.some.inj h
      rfl
  | case2 first second third fourth rest hlast =>
      obtain ⟨rfl, rfl⟩ := hlast
      exact (decodeLast_eq_some_iff.mp h).2
  | case3 first second third fourth rest hlast ih =>
      obtain ⟨w, hw, h⟩ := Option.bind_eq_some_iff.mp h
      obtain ⟨x, hx, h⟩ := Option.bind_eq_some_iff.mp h
      obtain ⟨y, hy, h⟩ := Option.bind_eq_some_iff.mp h
      obtain ⟨z, hz, h⟩ := Option.bind_eq_some_iff.mp h
      obtain ⟨tail, htail, h⟩ := Option.bind_eq_some_iff.mp h
      obtain rfl := Option.some.inj h
      obtain ⟨hw, rfl⟩ := sextetValue_eq_some_iff.mp hw
      obtain ⟨hx, rfl⟩ := sextetValue_eq_some_iff.mp hx
      obtain ⟨hy, rfl⟩ := sextetValue_eq_some_iff.mp hy
      obtain ⟨hz, rfl⟩ := sextetValue_eq_some_iff.mp hz
      have hfirst : (UInt8.ofNat (w * 4 + x / 16)).toNat = w * 4 + x / 16 := by
        rw [UInt8.toNat_ofNat']
        omega
      have hsecond : (UInt8.ofNat (x % 16 * 16 + y / 4)).toNat = x % 16 * 16 + y / 4 := by
        rw [UInt8.toNat_ofNat']
        omega
      have hthird : (UInt8.ofNat (y % 4 * 64 + z)).toNat = y % 4 * 64 + z := by
        rw [UInt8.toNat_ofNat']
        omega
      have hw' : (w * 4 + x / 16) / 4 = w := by omega
      have hx' : (w * 4 + x / 16) % 4 * 16 + (x % 16 * 16 + y / 4) / 16 = x := by omega
      have hy' : (x % 16 * 16 + y / 4) % 16 * 4 + (y % 4 * 64 + z) / 64 = y := by omega
      have hz' : (y % 4 * 64 + z) % 64 = z := by omega
      rw [encode, hfirst, hsecond, hthird, hw', hx', hy', hz', ih htail]
  | case4 => cases h

/-- A text is read exactly when it is the text of a byte string. -/
theorem decode_eq_some_iff {cs : List Char} {bytes : Bytes} :
    decode cs = some bytes ↔ cs = encode bytes := by
  constructor
  · intro h
    exact (encode_of_decode h).symm
  · rintro rfl
    exact decode_encode bytes

theorem encode_injective {bytes bytes' : Bytes} (h : encode bytes = encode bytes') :
    bytes = bytes' := by
  apply Option.some.inj
  rw [← decode_encode, h, decode_encode]

theorem length_encode (bytes : Bytes) : (encode bytes).length = 4 * ((bytes.length + 2) / 3) := by
  fun_induction encode bytes with
  | case1 => rfl
  | case2 a => simp
  | case3 a b => simp
  | case4 a b c rest ih =>
      simp only [List.length_cons, ih]
      omega

/-- An engine of a base64 library, which says why it refuses a text. -/
structure Engine where
  DecodeError : Type
  debug : DecodeError → String
  encode : Bytes → String
  decode : String → Except DecodeError Bytes

/-- The engine writes the padded text and is as strict as `decode`. -/
structure Engine.Strict (engine : Engine) : Prop where
  toList_encode : ∀ bytes, (engine.encode bytes).toList = Base64.encode bytes
  decode_ok_iff : ∀ text bytes, engine.decode text = .ok bytes ↔
    Base64.decode text.toList = some bytes

namespace Engine.Strict

variable {engine : Engine} (hengine : engine.Strict)

include hengine

theorem decode_iff {text : String} {bytes : Bytes} :
    engine.decode text = .ok bytes ↔ text = engine.encode bytes := by
  rw [hengine.decode_ok_iff, decode_eq_some_iff, ← hengine.toList_encode, String.toList_inj]

theorem decode_encode (bytes : Bytes) : engine.decode (engine.encode bytes) = .ok bytes :=
  hengine.decode_iff.mpr rfl

theorem encode_injective {bytes bytes' : Bytes} (h : engine.encode bytes = engine.encode bytes') :
    bytes = bytes' := by
  apply Base64.encode_injective
  rw [← hengine.toList_encode, h, hengine.toList_encode]

theorem length_toList_encode (bytes : Bytes) :
    (engine.encode bytes).toList.length = 4 * ((bytes.length + 2) / 3) := by
  rw [hengine.toList_encode, length_encode]

end Engine.Strict

/-- The functions above as an engine. -/
def engine : Engine where
  DecodeError := Unit
  debug _ := "InvalidPadding"
  encode bytes := String.ofList (encode bytes)
  decode text :=
    match decode text.toList with
    | some bytes => .ok bytes
    | none => .error ()

theorem engine_strict : engine.Strict where
  toList_encode _ := String.toList_ofList
  decode_ok_iff text bytes := by
    rw [engine]
    dsimp only
    cases decode text.toList with
    | none => simp
    | some read => simp

end Base64
