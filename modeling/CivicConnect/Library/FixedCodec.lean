import Mathlib.Data.List.Basic

/-!
# Codes of a fixed length

A codec writes every value with the same number of symbols, and reads back
exactly what it writes. The concatenation of two such codes needs no separator.
-/

universe u v w

/-- Values of type `α` as lists of `n` symbols; both round trips are fields. -/
structure FixedCodec (α : Type u) (β : Type v) (n : ℕ) where
  encode : α → List β
  decode : List β → Option α
  length_encode : ∀ a, (encode a).length = n
  decode_encode : ∀ a, decode (encode a) = some a
  encode_decode : ∀ code a, decode code = some a → encode a = code

namespace FixedCodec

variable {α : Type u} {γ : Type w} {β : Type v} {m n : ℕ} (c : FixedCodec α β m)
  (d : FixedCodec γ β n) {code first second : List β} {a : α}

theorem length_of_decode (h : c.decode code = some a) : code.length = m := by
  rw [← c.encode_decode code a h]
  exact c.length_encode a

/-- The code of a pair is the code of its first component followed by that of
its second; a reader splits it after `m` symbols. -/
def pair : FixedCodec (α × γ) β (m + n) where
  encode x := c.encode x.1 ++ d.encode x.2
  decode code := (c.decode (code.take m)).bind fun a => (d.decode (code.drop m)).map (a, ·)
  length_encode x := by rw [List.length_append, c.length_encode, d.length_encode]
  decode_encode x := by
    rw [List.take_left' (c.length_encode x.1), List.drop_left' (c.length_encode x.1),
      c.decode_encode, d.decode_encode]
    rfl
  encode_decode code x h := by
    obtain ⟨a, ha, hmap⟩ := Option.bind_eq_some_iff.mp h
    obtain ⟨b, hb, rfl⟩ := Option.map_eq_some_iff.mp hmap
    rw [c.encode_decode _ a ha, d.encode_decode _ b hb, List.take_append_drop]

theorem pair_decode_append (h : first.length = m) :
    (c.pair d).decode (first ++ second) =
      (c.decode first).bind fun a => (d.decode second).map (a, ·) := by
  rw [pair]
  dsimp only
  rw [List.take_left' h, List.drop_left' h]

end FixedCodec
