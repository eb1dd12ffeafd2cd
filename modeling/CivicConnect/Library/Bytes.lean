import Mathlib.Data.List.Basic

/-!
# Byte strings

Byte strings, arrays of a fixed length, and slices. A slice with an index out
of range is `none`. Sixteen bit numbers are written with the high byte first.
-/

abbrev Bytes := List UInt8

abbrev FixedBytes (n : ℕ) := {bytes : Bytes // bytes.length = n}

namespace Bytes

/-- `bytes[start..stop]`. -/
def slice (bytes : Bytes) (start stop : ℕ) : Option Bytes :=
  if start ≤ stop ∧ stop ≤ bytes.length then some ((bytes.take stop).drop start) else none

/-- `bytes[start..]`. -/
def sliceFrom (bytes : Bytes) (start : ℕ) : Option Bytes := bytes.slice start bytes.length

/-- The array with these bytes, if their number is right. -/
def toFixed (n : ℕ) (bytes : Bytes) : Option (FixedBytes n) :=
  if h : bytes.length = n then some ⟨bytes, h⟩ else none

theorem slice_append (first second rest : Bytes) :
    (first ++ (second ++ rest)).slice first.length (first.length + second.length) =
      some second := by
  rw [slice, if_pos ⟨Nat.le_add_right _ _, by simp⟩]
  rw [List.take_length_add_append, List.drop_left, List.take_left]

theorem sliceFrom_append (first rest : Bytes) :
    (first ++ rest).sliceFrom first.length = some rest := by
  have hslice := slice_append first rest []
  rw [List.append_nil] at hslice
  rw [sliceFrom, List.length_append, hslice]

@[simp] theorem toFixed_val {n : ℕ} (bytes : FixedBytes n) :
    toFixed n bytes.val = some bytes := dif_pos bytes.property

theorem val_of_toFixed {n : ℕ} {bytes : Bytes} {array : FixedBytes n}
    (h : toFixed n bytes = some array) : array.val = bytes := by
  rw [toFixed] at h
  split at h
  · rw [← Option.some.inj h]
  · cases h

/-- `u16::to_be_bytes`. -/
def ofU16 (n : UInt16) : FixedBytes 2 :=
  ⟨[UInt8.ofNat (n.toNat / 256), UInt8.ofNat (n.toNat % 256)], rfl⟩

/-- `u16::from_be_bytes`. -/
def toU16 : FixedBytes 2 → UInt16
  | ⟨[high, low], _⟩ => UInt16.ofNat (high.toNat * 256 + low.toNat)

theorem toU16_ofU16 (n : UInt16) : toU16 (ofU16 n) = n := by
  have hn := n.toNat_lt
  apply UInt16.toNat_inj.mp
  simp only [ofU16, toU16, UInt16.toNat_ofNat', UInt8.toNat_ofNat']
  omega

theorem ofU16_toU16 (bytes : FixedBytes 2) : ofU16 (toU16 bytes) = bytes := by
  obtain ⟨bytes, hlength⟩ := bytes
  match bytes, hlength with
  | [high, low], _ =>
      have hhigh := high.toNat_lt
      have hlow := low.toNat_lt
      have hnumber : (toU16 ⟨[high, low], rfl⟩).toNat = high.toNat * 256 + low.toNat := by
        rw [toU16, UInt16.toNat_ofNat']
        omega
      apply Subtype.ext
      rw [ofU16, hnumber]
      have hdiv : (high.toNat * 256 + low.toNat) / 256 = high.toNat := by omega
      have hmod : (high.toNat * 256 + low.toNat) % 256 = low.toNat := by omega
      rw [hdiv, hmod, UInt8.ofNat_toNat, UInt8.ofNat_toNat]

end Bytes
