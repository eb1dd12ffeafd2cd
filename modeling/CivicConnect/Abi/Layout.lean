import CivicConnect.Library.Rounding
import Mathlib.Algebra.Order.Ring.Nat
import Mathlib.Data.Nat.ModEq

/-!
# Struct layouts

The arithmetic of the layout module. The size of a struct is built from two
folds: one keeps the end of the last field, the other one the size of the first
field after the head.
-/

namespace CivicConnect.Abi

open Rounding

def paddingFor (offset : ℕ) : ℕ → ℕ
  | 0 => 0
  | alignment =>
      let m := offset % alignment
      if m = 0 then 0 else alignment - m

def alignUp (size alignment : ℕ) : ℕ := size + paddingFor size alignment

structure Field where
  name : String
  offset : ℕ
  size : ℕ
  alignment : ℕ
  deriving DecidableEq, Repr

def nextFieldOffset (f : Field) : ℕ := alignUp (f.offset + f.size) f.alignment

/-- A layout without the two proofs in it, which are erased and of which one is
postulated. -/
structure StructLayout where
  fields : List Field
  totalSize : ℕ
  alignment : ℕ
  deriving DecidableEq, Repr

def calcStructSize : List Field → ℕ → ℕ
  | [], _ => 0
  | f :: fs, align =>
      let lastOffset := fs.foldl (fun _ field => nextFieldOffset field) f.offset
      let lastSize := fs.foldr (fun field _ => field.size) f.size
      alignUp (lastOffset + lastSize) align

def verifyLayout (fields : List Field) (align : ℕ) : Except String StructLayout :=
  let size := calcStructSize fields align
  if size ≥ (fields.map Field.size).sum then .ok ⟨fields, size, align⟩
  else .error "Invalid struct size"

/-- The evidence that the check hands out is postulated, for any layout. -/
def checkCABI (_layout : StructLayout) : Except String Unit := .ok ()

/-- The position of the field with the name, and the field. -/
def StructLayout.fieldOffset (layout : StructLayout) (name : String) : Option (ℕ × Field) :=
  (layout.fields.findFinIdx? fun f => f.name == name).map fun idx =>
    (idx.val, layout.fields.get idx)

variable {size alignment : ℕ}

theorem alignUp_of_pos (h : 0 < alignment) (size : ℕ) :
    alignUp size alignment =
      if size % alignment = 0 then size else size + (alignment - size % alignment) := by
  obtain ⟨a, rfl⟩ := Nat.exists_eq_succ_of_ne_zero h.ne'
  rw [alignUp, paddingFor]
  · split <;> rfl
  · exact Nat.succ_ne_zero a

@[simp] theorem alignUp_size_zero (alignment : ℕ) : alignUp 0 alignment = 0 := by
  cases alignment with
  | zero => rfl
  | succ a => rw [alignUp_of_pos a.succ_pos, Nat.zero_mod, if_pos rfl]

theorem le_alignUp (size alignment : ℕ) : size ≤ alignUp size alignment := Nat.le_add_right _ _

theorem dvd_alignUp (h : 0 < alignment) (size : ℕ) : alignment ∣ alignUp size alignment := by
  rw [alignUp_of_pos h]
  split
  · next hzero => exact Nat.dvd_of_mod_eq_zero hzero
  · have hlt := Nat.mod_lt size h
    have hdiv := Nat.div_add_mod size alignment
    refine ⟨size / alignment + 1, ?_⟩
    rw [Nat.mul_succ]
    omega

theorem alignUp_lt (h : 0 < alignment) (size : ℕ) : alignUp size alignment < size + alignment := by
  rw [alignUp_of_pos h]
  split <;> omega

/-- Of the multiples from the size on it is the least, as it lies less than one
alignment above. -/
theorem alignUp_eq_roundUp (h : 0 < alignment) (size : ℕ) :
    alignUp size alignment = roundUp alignment size := by
  apply IsLeast.unique _ (isLeast_roundUp h size)
  refine ⟨⟨le_alignUp size alignment, dvd_alignUp h size⟩, ?_⟩
  rintro m ⟨hle, k, rfl⟩
  have hlt := alignUp_lt h size
  obtain ⟨j, hj⟩ := dvd_alignUp h size
  have hmul : alignment * j < alignment * (k + 1) := by
    rw [Nat.mul_succ]
    omega
  rw [hj]
  exact Nat.mul_le_mul_left alignment (Nat.le_of_lt_succ (Nat.lt_of_mul_lt_mul_left hmul))

theorem paddingFor_lt (h : 0 < alignment) (size : ℕ) : paddingFor size alignment < alignment := by
  have hlt := alignUp_lt h size
  rw [alignUp] at hlt
  exact Nat.lt_of_add_lt_add_left hlt

/-- As a closure it keeps the order of the sizes. -/
theorem alignUp_mono (h : 0 < alignment) : Monotone fun size => alignUp size alignment := by
  intro size size' hle
  dsimp only
  rw [alignUp_eq_roundUp h, alignUp_eq_roundUp h]
  exact (closure h).monotone hle

theorem alignUp_idem (h : 0 < alignment) (size : ℕ) :
    alignUp (alignUp size alignment) alignment = alignUp size alignment := by
  rw [alignUp_eq_roundUp h, alignUp_eq_roundUp h]
  exact (closure h).idempotent size

theorem foldl_last {α β : Type*} (g : α → β) (b : β) (xs : List α) :
    xs.foldl (fun _ x => g x) b = (xs.getLast?.map g).getD b := by
  induction xs using List.reverseRecOn with
  | nil => rfl
  | append_singleton xs x _ => simp

theorem foldr_head {α β : Type*} (g : α → β) (b : β) (xs : List α) :
    xs.foldr (fun x _ => g x) b = (xs.head?.map g).getD b := by
  cases xs <;> rfl

/-- Where `calcStructSize` takes the fields to end: for one field at its end, and
for more at the place after the last one with the size of the second added. -/
def nominalEnd : List Field → ℕ
  | [] => 0
  | [f] => f.offset + f.size
  | _ :: second :: rest =>
      nextFieldOffset ((second :: rest).getLast (List.cons_ne_nil second rest)) + second.size

theorem calcStructSize_eq (fields : List Field) (align : ℕ) :
    calcStructSize fields align = alignUp (nominalEnd fields) align := by
  match fields with
  | [] => simp [calcStructSize, nominalEnd]
  | [f] => rfl
  | f :: second :: rest =>
      rw [calcStructSize, foldl_last, foldr_head, nominalEnd,
        List.getLast?_eq_some_getLast (List.cons_ne_nil second rest)]
      rfl

theorem dvd_calcStructSize {align : ℕ} (h : 0 < align) (fields : List Field) :
    align ∣ calcStructSize fields align := by
  cases fields with
  | nil => exact Nat.dvd_zero align
  | cons f fs => exact dvd_alignUp h _

/-- For a positive alignment `alignUp` gives the least multiple that is large
enough, by less than one alignment of padding, and what is postulated of it and
of `calcStructSize` holds. -/
theorem alignUp_isLeast_aligned (h : 0 < alignment) :
    (∀ size, paddingFor size alignment < alignment ∧
        IsLeast {m | size ≤ m ∧ alignment ∣ m} (alignUp size alignment) ∧
        alignUp size alignment = alignUp size alignment / alignment * alignment ∧
        alignUp (alignUp size alignment) alignment = alignUp size alignment) ∧
      (∀ size size', size ≤ size' → alignUp size alignment ≤ alignUp size' alignment) ∧
      ∀ fields, alignment ∣ calcStructSize fields alignment := by
  refine ⟨fun size => ?_, fun size size' hle => alignUp_mono h hle, dvd_calcStructSize h⟩
  refine ⟨paddingFor_lt h size, ?_, ?_, alignUp_idem h size⟩
  · rw [alignUp_eq_roundUp h]
    exact isLeast_roundUp h size
  · exact (Nat.div_mul_cancel (dvd_alignUp h size)).symm

theorem alignUp_isLeast_aligned_twelve :
    0 < 12 ∧ IsLeast {m | 25 ≤ m ∧ 12 ∣ m} 36 ∧
      12 ∣ calcStructSize [⟨"x", 0, 5, 4⟩, ⟨"y", 8, 6, 8⟩] 12 := by
  have hpos : 0 < 12 := by decide
  obtain ⟨hsize, _, hstruct⟩ := alignUp_isLeast_aligned hpos
  exact ⟨hpos, (hsize 25).2.1, hstruct _⟩

/-- The facts that the module postulates of every layout. -/
def StructLayout.Sound (layout : StructLayout) : Prop :=
  ∀ f ∈ layout.fields, f.offset + f.size ≤ layout.totalSize ∧ f.alignment ∣ f.offset

theorem verifyLayout_ok_iff {fields : List Field} {align : ℕ} {layout : StructLayout} :
    verifyLayout fields align = .ok layout ↔
      (fields.map Field.size).sum ≤ alignUp (nominalEnd fields) align ∧
        layout = ⟨fields, alignUp (nominalEnd fields) align, align⟩ := by
  rw [verifyLayout, calcStructSize_eq]
  split
  · next h => simp [h, eq_comm]
  · next h => simp [h]

theorem checked_sound_iff_resolved {fields : List Field} {align : ℕ} :
    (∀ layout, verifyLayout fields align = .ok layout → checkCABI layout = .ok () →
        layout.Sound) ↔
      alignUp (nominalEnd fields) align < (fields.map Field.size).sum ∨
        StructLayout.Sound ⟨fields, alignUp (nominalEnd fields) align, align⟩ := by
  constructor
  · intro h
    by_cases hsize : (fields.map Field.size).sum ≤ alignUp (nominalEnd fields) align
    · exact .inr (h _ (verifyLayout_ok_iff.mpr ⟨hsize, rfl⟩) rfl)
    · exact .inl (not_le.mp hsize)
  · rintro h layout hverify _
    obtain ⟨hsize, rfl⟩ := verifyLayout_ok_iff.mp hverify
    exact h.resolve_left (not_lt.mpr hsize)

/-- A place where a struct of this alignment may end lies from `start` on and
before `stop`. -/
def BoundaryBetween (align start stop : ℕ) : Prop :=
  ∃ m, start ≤ m ∧ m < stop ∧ (align = 0 ∨ align ∣ m)

theorem alignUp_lt_iff {align start stop : ℕ} :
    alignUp start align < stop ↔ BoundaryBetween align start stop := by
  cases align with
  | zero =>
      constructor
      · exact fun h => ⟨start, le_rfl, h, .inl rfl⟩
      · rintro ⟨m, hle, hlt, _⟩
        exact hle.trans_lt hlt
  | succ a =>
      rw [alignUp_eq_roundUp a.succ_pos, roundUp_lt_iff a.succ_pos]
      simp [BoundaryBetween]

/-- What the fields must be like for the checks to tell the truth about them. A
lone field is never refused and never out of bounds. Of more fields the last one
is never out of bounds, and another one is where a boundary lies between the
place at which the fields are taken to end and its own end; and they are refused
where a boundary lies between that place and the sum of their sizes. -/
def Truthful (align : ℕ) : List Field → Prop
  | [] => True
  | [f] => f.alignment ∣ f.offset
  | f :: second :: rest =>
      let fields := f :: second :: rest
      let last := (second :: rest).getLast (List.cons_ne_nil second rest)
      let taken := nextFieldOffset last + second.size
      BoundaryBetween align taken (fields.map Field.size).sum ∨
        (∀ g ∈ fields, g.alignment ∣ g.offset) ∧
          ∀ g ∈ fields.dropLast, ¬ BoundaryBetween align taken (g.offset + g.size)

theorem sound_singleton_iff {f : Field} {align : ℕ} :
    StructLayout.Sound ⟨[f], alignUp (nominalEnd [f]) align, align⟩ ↔ f.alignment ∣ f.offset := by
  have hinside : f.offset + f.size ≤ alignUp (nominalEnd [f]) align := le_alignUp _ _
  simp [StructLayout.Sound, hinside]

theorem sound_cons_cons_iff {f second : Field} {rest : List Field} {align : ℕ} :
    StructLayout.Sound ⟨f :: second :: rest,
        alignUp (nominalEnd (f :: second :: rest)) align, align⟩ ↔
      (∀ g ∈ f :: second :: rest, g.alignment ∣ g.offset) ∧
        ∀ g ∈ (f :: second :: rest).dropLast,
          ¬ BoundaryBetween align (nominalEnd (f :: second :: rest)) (g.offset + g.size) := by
  have hne : f :: second :: rest ≠ [] := List.cons_ne_nil f _
  have hlast : ((f :: second :: rest).getLast hne).offset + ((f :: second :: rest).getLast hne).size
      ≤ alignUp (nominalEnd (f :: second :: rest)) align := by
    rw [List.getLast_cons (List.cons_ne_nil second rest)]
    exact (le_alignUp _ _).trans ((Nat.le_add_right _ _).trans (le_alignUp _ _))
  have hinside : (∀ g ∈ f :: second :: rest,
        g.offset + g.size ≤ alignUp (nominalEnd (f :: second :: rest)) align) ↔
      ∀ g ∈ (f :: second :: rest).dropLast,
        ¬ BoundaryBetween align (nominalEnd (f :: second :: rest)) (g.offset + g.size) := by
    simp only [← alignUp_lt_iff, not_lt]
    constructor
    · exact fun h g hg => h g (List.dropLast_subset _ hg)
    · intro h g hg
      rw [← List.dropLast_append_getLast hne, List.mem_append, List.mem_singleton] at hg
      rcases hg with hfront | rfl
      · exact h g hfront
      · exact hlast
  rw [← hinside, and_comm]
  exact forall₂_and

/-- Each field ends before the next ones begin. -/
def InOrder (fields : List Field) : Prop :=
  fields.Pairwise fun f g => f.offset + f.size ≤ g.offset

theorem InOrder.sum_le {fields : List Field} (h : InOrder fields) {bound : ℕ}
    (hbound : ∀ f ∈ fields, f.offset + f.size ≤ bound) :
    (fields.map Field.size).sum ≤ bound := by
  induction fields using List.reverseRecOn generalizing bound with
  | nil => exact Nat.zero_le bound
  | append_singleton fs last ih =>
      obtain ⟨hfront, _, hbefore⟩ := List.pairwise_append.mp h
      have hsum : (fs.map Field.size).sum ≤ last.offset :=
        ih hfront fun f hf => hbefore f hf last (List.mem_singleton_self last)
      have hlast := hbound last (List.mem_append_right fs (List.mem_singleton_self last))
      rw [List.map_append, List.sum_append, List.map_singleton, List.sum_singleton]
      exact (Nat.add_le_add_right hsum last.size).trans hlast

/-- Fields in order end before the place at which they are taken to end. -/
theorem InOrder.end_le {fields : List Field} (h : InOrder fields) {f : Field} (hf : f ∈ fields) :
    f.offset + f.size ≤ nominalEnd fields := by
  match fields, h, hf with
  | [g], _, hf =>
      obtain rfl := List.mem_singleton.mp hf
      exact le_rfl
  | first :: second :: rest, h, hf =>
      have hlast : ∀ g, (second :: rest).getLast (List.cons_ne_nil second rest) = g →
          g.offset + g.size ≤ nominalEnd (first :: second :: rest) := by
        rintro g rfl
        exact (le_alignUp _ _).trans (Nat.le_add_right _ _)
      have hsplit := List.dropLast_append_getLast (List.cons_ne_nil first (second :: rest))
      rw [List.getLast_cons (List.cons_ne_nil second rest)] at hsplit
      rw [← hsplit] at h hf
      obtain ⟨_, _, hbefore⟩ := List.pairwise_append.mp h
      rcases List.mem_append.mp hf with hfront | hf
      · exact (hbefore f hfront _ (List.mem_singleton_self _)).trans
          ((Nat.le_add_right _ _).trans (hlast _ rfl))
      · exact hlast f (List.mem_singleton.mp hf).symm

/-- What passes the two checks is sound exactly where the fields are such that
the checks tell the truth, which for fields in order is a matter of their
alignments alone. -/
theorem checked_sound_iff (fields : List Field) (align : ℕ) :
    ((∀ layout, verifyLayout fields align = .ok layout → checkCABI layout = .ok () →
        layout.Sound) ↔
      Truthful align fields) ∧
    (InOrder fields → (Truthful align fields ↔ ∀ f ∈ fields, f.alignment ∣ f.offset)) := by
  have hchecked : (∀ layout, verifyLayout fields align = .ok layout →
      checkCABI layout = .ok () → layout.Sound) ↔ Truthful align fields := by
    rw [checked_sound_iff_resolved, alignUp_lt_iff]
    match fields with
    | [] => exact iff_of_true (.inr fun f hf => absurd hf List.not_mem_nil) trivial
    | [f] =>
        have haccepted : ¬ BoundaryBetween align (nominalEnd [f]) ([f].map Field.size).sum := by
          rw [← alignUp_lt_iff, not_lt]
          exact (Nat.le_add_left f.size f.offset).trans (le_alignUp _ _)
        rw [or_iff_right haccepted, sound_singleton_iff, Truthful]
    | f :: second :: rest => rw [sound_cons_cons_iff, Truthful, nominalEnd]
  refine ⟨hchecked, fun horder => ?_⟩
  have hinside : ∀ f ∈ fields, f.offset + f.size ≤ alignUp (nominalEnd fields) align := fun f hf =>
    (horder.end_le hf).trans (le_alignUp _ _)
  rw [← hchecked, checked_sound_iff_resolved, or_iff_right (not_lt.mpr (horder.sum_le hinside))]
  exact ⟨fun h f hf => (h f hf).2, fun h f hf => ⟨hinside f hf, h f hf⟩⟩

/-- A byte, a gap, and a word where it belongs. -/
theorem checked_sound_iff_byte_word :
    InOrder [⟨"tag", 0, 1, 1⟩, ⟨"value", 8, 8, 8⟩] ∧
      ∀ layout, verifyLayout [⟨"tag", 0, 1, 1⟩, ⟨"value", 8, 8, 8⟩] 8 = .ok layout →
        checkCABI layout = .ok () → layout.Sound := by
  have horder : InOrder [⟨"tag", 0, 1, 1⟩, ⟨"value", 8, 8, 8⟩] := by simp [InOrder]
  obtain ⟨hchecked, haligned⟩ := checked_sound_iff [⟨"tag", 0, 1, 1⟩, ⟨"value", 8, 8, 8⟩] 8
  exact ⟨horder, hchecked.mpr ((haligned horder).mpr (by decide))⟩

/-- A field at an odd place passes both checks. -/
theorem misaligned_field_passes :
    ¬ ∀ (fields : List Field) (align : ℕ) (layout : StructLayout),
      verifyLayout fields align = .ok layout → checkCABI layout = .ok () → layout.Sound := by
  intro h
  have hsound := h [⟨"x", 1, 4, 4⟩] 4 ⟨[⟨"x", 1, 4, 4⟩], 8, 4⟩ rfl rfl
  exact absurd (hsound _ List.mem_cons_self).2 (by decide)

end CivicConnect.Abi
