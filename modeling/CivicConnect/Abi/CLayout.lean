import CivicConnect.Abi.Layout

/-!
# The layout rules of C

Each field stands at the least multiple of its alignment from the end of the
field before, and the size of the struct is the end of the last field rounded up
to the alignment of the struct.
-/

namespace CivicConnect.Abi

open Rounding

structure FieldDecl where
  name : String
  size : ℕ
  alignment : ℕ
  deriving DecidableEq, Repr

/-- The fields, the first of them from the cursor on. -/
def placeFields (cursor : ℕ) : List FieldDecl → List Field
  | [] => []
  | d :: ds =>
      let offset := roundUp d.alignment cursor
      ⟨d.name, offset, d.size, d.alignment⟩ :: placeFields (offset + d.size) ds

def cFields (decls : List FieldDecl) : List Field := placeFields 0 decls

def structAlignment (decls : List FieldDecl) : ℕ :=
  (decls.map FieldDecl.alignment).foldr max 0

def lastEnd (fields : List Field) : ℕ := fields.getLast?.elim 0 fun f => f.offset + f.size

def sizeof (decls : List FieldDecl) : ℕ := roundUp (structAlignment decls) (lastEnd (cFields decls))

/-- The layout module agrees with the rules on the size and on every offset. -/
def MatchesC (decls : List FieldDecl) : Prop :=
  calcStructSize (cFields decls) (structAlignment decls) = sizeof decls ∧
    ∀ layout : StructLayout, layout.fields = cFields decls → ∀ f ∈ cFields decls,
      layout.fieldOffset f.name = some (f.offset, f)

variable {decls : List FieldDecl} {fields : List Field} {align : ℕ}

/-- The end of the last field, rounded up for that field, leaves room for the
size of the second one before the size of the struct. -/
def SecondFits (fields : List Field) (totalSize : ℕ) : Prop :=
  ∀ second last, fields[1]? = some second → fields.getLast? = some last →
    alignUp (last.offset + last.size) last.alignment + second.size ≤ totalSize

/-- Each field stands at the offset that is its position. -/
def OffsetsArePositions (fields : List Field) : Prop :=
  ∀ (i : ℕ) (f : Field), fields[i]? = some f → f.offset = i

theorem calcStructSize_eq_iff (hne : fields ≠ []) (h : 0 < align) :
    calcStructSize fields align = roundUp align (lastEnd fields) ↔
      SecondFits fields (roundUp align (lastEnd fields)) := by
  rw [calcStructSize_eq, alignUp_eq_roundUp h]
  match fields with
  | [f] => exact iff_of_true rfl fun second last hsecond => by simp at hsecond
  | f :: second :: rest =>
      have hlast := List.getLast?_eq_some_getLast (List.cons_ne_nil second rest)
      generalize hname : (second :: rest).getLast (List.cons_ne_nil second rest) = last at hlast
      have hend : lastEnd (f :: second :: rest) = last.offset + last.size := by
        rw [lastEnd, List.getLast?_cons_cons, hlast]
        rfl
      rw [nominalEnd, hname, hend, nextFieldOffset, roundUp_eq_iff h]
      · constructor
        · rintro hfits second' last' hsecond' hlast'
          obtain rfl : second = second' := by simpa using hsecond'
          rw [List.getLast?_cons_cons, hlast] at hlast'
          obtain rfl := Option.some.inj hlast'
          exact hfits
        · intro hfits
          exact hfits second last rfl (by rw [List.getLast?_cons_cons, hlast])
      · exact (le_alignUp _ last.alignment).trans (Nat.le_add_right _ _)

theorem map_name_placeFields (cursor : ℕ) (decls : List FieldDecl) :
    (placeFields cursor decls).map Field.name = decls.map FieldDecl.name := by
  induction decls generalizing cursor with
  | nil => rfl
  | cons d ds ih => rw [placeFields, List.map_cons, List.map_cons, ih]

theorem cFields_ne_nil (h : decls ≠ []) : cFields decls ≠ [] := by
  cases decls with
  | nil => exact absurd rfl h
  | cons d ds => exact List.cons_ne_nil _ _

theorem structAlignment_pos (hne : decls ≠ []) (hpos : ∀ d ∈ decls, 0 < d.alignment) :
    0 < structAlignment decls := by
  cases decls with
  | nil => exact absurd rfl hne
  | cons d ds => exact (hpos d List.mem_cons_self).trans_le (Nat.le_max_left _ _)

/-- Among fields with distinct names the name of a field leads to it, and to its
position. -/
theorem fieldOffset_name (layout : StructLayout) (hnodup : (layout.fields.map Field.name).Nodup)
    {i : ℕ} {f : Field} (h : layout.fields[i]? = some f) :
    layout.fieldOffset f.name = some (i, f) := by
  obtain ⟨hi, rfl⟩ := List.getElem?_eq_some_iff.mp h
  have hfind : (layout.fields.findFinIdx? fun g => g.name == layout.fields[i].name) =
      some ⟨i, hi⟩ := by
    rw [List.findFinIdx?_eq_some_iff]
    refine ⟨beq_self_eq_true _, ?_⟩
    intro j hji hname
    have hlt : j.val < i := hji
    have hfirst : j.val < (layout.fields.map Field.name).length := by simp
    have hsecond : i < (layout.fields.map Field.name).length := by simpa using hi
    have hsame : (layout.fields.map Field.name)[j.val] = (layout.fields.map Field.name)[i] := by
      rw [List.getElem_map, List.getElem_map]
      exact eq_of_beq hname
    have heq := (List.Nodup.getElem_inj_iff hnodup).mp hsame
    omega
  rw [StructLayout.fieldOffset, hfind]
  rfl

theorem fieldOffset_iff (layout : StructLayout)
    (hnodup : (layout.fields.map Field.name).Nodup) :
    (∀ f ∈ layout.fields, layout.fieldOffset f.name = some (f.offset, f)) ↔
      OffsetsArePositions layout.fields := by
  constructor
  · intro h i f hget
    have hf := h f (List.mem_of_getElem? hget)
    rw [fieldOffset_name layout hnodup hget] at hf
    exact (congrArg Prod.fst (Option.some.inj hf)).symm
  · intro h f hf
    obtain ⟨i, hget⟩ := List.mem_iff_getElem?.mp hf
    rw [fieldOffset_name layout hnodup hget, h i f hget]

/-- The module agrees with the rules exactly where the size of the second field
fits in after the last one and each field stands at the offset that is its
position. -/
theorem matchesC_iff (hne : decls ≠ []) (hpos : ∀ d ∈ decls, 0 < d.alignment)
    (hnames : (decls.map FieldDecl.name).Nodup) :
    MatchesC decls ↔ SecondFits (cFields decls) (sizeof decls) ∧
      OffsetsArePositions (cFields decls) := by
  rw [MatchesC, sizeof,
    calcStructSize_eq_iff (cFields_ne_nil hne) (structAlignment_pos hne hpos)]
  refine and_congr_right fun _ => ?_
  have hdistinct : ((cFields decls).map Field.name).Nodup := by
    rw [cFields, map_name_placeFields]
    exact hnames
  constructor
  · intro h
    exact (fieldOffset_iff ⟨cFields decls, 0, 0⟩ hdistinct).mp (h _ rfl)
  · rintro h layout hfields
    rw [← hfields] at hdistinct h ⊢
    exact (fieldOffset_iff layout hdistinct).mpr h

/-- Two bytes, the first one aligned to four. -/
def taggedDecls : List FieldDecl := [⟨"tag", 1, 4⟩, ⟨"flag", 1, 1⟩]

theorem matchesC_iff_tagged : MatchesC taggedDecls := by
  apply (matchesC_iff (by decide) (by decide) (by decide)).mpr
  constructor
  · rintro second last hsecond hlast
    obtain rfl := Option.some.inj hsecond
    obtain rfl := Option.some.inj hlast
    decide
  · rintro i f hget
    match i, hget with
    | 0, hget => exact congrArg Field.offset (Option.some.inj hget).symm
    | 1, hget => exact congrArg Field.offset (Option.some.inj hget).symm

/-- The fields of `exampleLayout`. -/
def exampleDecls : List FieldDecl := [⟨"x", 4, 4⟩, ⟨"y", 8, 8⟩, ⟨"z", 8, 8⟩]

/-- Their size is 24, and it is computed as 32. -/
theorem example_not_matchesC :
    ¬ ∀ decls : List FieldDecl, decls ≠ [] → (∀ d ∈ decls, 0 < d.alignment) →
      (decls.map FieldDecl.name).Nodup → MatchesC decls := by
  intro h
  have hmatches := h exampleDecls (by decide) (by decide) (by decide)
  exact absurd hmatches.1 (by decide)

end CivicConnect.Abi
