import CivicConnect.Net.Numerals
import Mathlib.Data.ENat.Basic
import Mathlib.Data.Fin.VecNotation
import Mathlib.Data.List.FinRange

/-!
# Cells of the hexagonal grid

The grid library is a parameter. `get_neighbors` begins with the text it was
given and leaves out of the disk what has the same text, which is the centre
only where the text is the printed one.
-/

namespace CivicConnect.RustApi

open Net

/-- The grid library: cells with their texts, their distances and their disks.
A cell may have several texts that parse, but it has one that is printed. -/
structure CellGrid (Cell : Type*) where
  parse : String → Option Cell
  print : Cell → String
  distance : Cell → Cell → ℕ∞
  gridDisk : Cell → UInt32 → List Cell
  parse_print : ∀ cell, parse (print cell) = some cell
  distance_eq_zero : ∀ cell other, distance cell other = 0 ↔ other = cell
  nodup_gridDisk : ∀ cell rings, (gridDisk cell rings).Nodup
  mem_gridDisk : ∀ cell rings other,
    other ∈ gridDisk cell rings ↔ distance cell other ≤ rings.toNat

namespace CellGrid

variable {Cell : Type*} (grid : CellGrid Cell)

def getNeighbors (cellStr : String) (rings : UInt32) : List String :=
  match grid.parse cellStr with
  | none => [cellStr]
  | some cell =>
      cellStr ::
        if rings > 0 then
          ((grid.gridDisk cell rings).map grid.print).filter fun neighborStr =>
            neighborStr ≠ cellStr
        else []

/-- The texts name the cells of the disk, each of them once. -/
def NamesDisk (names : List String) (cell : Cell) (rings : UInt32) : Prop :=
  ∃ cells : List Cell, names.map grid.parse = cells.map some ∧ cells.Nodup ∧
    ∀ other, other ∈ cells ↔ grid.distance cell other ≤ rings.toNat

variable {grid} {cell : Cell} {cellStr : String} {rings : UInt32}

theorem print_injective : Function.Injective grid.print := by
  intro cell other h
  have hparse := grid.parse_print cell
  rw [h, grid.parse_print] at hparse
  exact (Option.some.inj hparse).symm

theorem map_parse_print (cells : List Cell) :
    (cells.map grid.print).map grid.parse = cells.map some := by
  rw [List.map_map]
  exact List.map_congr_left fun cell _ => grid.parse_print cell

theorem mem_gridDisk_self (cell : Cell) (rings : UInt32) : cell ∈ grid.gridDisk cell rings := by
  rw [grid.mem_gridDisk, (grid.distance_eq_zero cell cell).mpr rfl]
  exact zero_le

theorem mem_getNeighbors {name : String} (h : name ∈ grid.getNeighbors cellStr rings) :
    name = cellStr ∨ ∃ other, grid.print other = name := by
  unfold getNeighbors at h
  split at h
  · exact .inl (List.mem_singleton.mp h)
  · rcases List.mem_cons.mp h with h | h
    · exact .inl h
    · split at h
      · obtain ⟨other, _, hprint⟩ := List.mem_map.mp (List.mem_filter.mp h).1
        exact .inr ⟨other, hprint⟩
      · cases h

theorem map_some_injective : Function.Injective (List.map (some : Cell → Option Cell)) :=
  List.map_injective_iff.mpr (Option.some_injective Cell)

/-- Which cells the list names, in its order. -/
theorem map_parse_getNeighbors (hparse : grid.parse cellStr = some cell) :
    (grid.getNeighbors cellStr rings).map grid.parse =
      (cell :: if rings > 0 then
        (grid.gridDisk cell rings).filter fun other => grid.print other ≠ cellStr
      else []).map some := by
  rw [getNeighbors, hparse]
  dsimp only
  rw [List.map_cons, hparse, List.map_cons]
  split
  · rw [List.filter_map, map_parse_print]
    rfl
  · rfl

theorem namesDisk_iff_cells {names : List String} {cells : List Cell}
    (h : names.map grid.parse = cells.map some) :
    grid.NamesDisk names cell rings ↔
      cells.Nodup ∧ ∀ other, other ∈ cells ↔ grid.distance cell other ≤ rings.toNat := by
  constructor
  · rintro ⟨cells', hcells', hnodup, hmem⟩
    obtain rfl := map_some_injective (hcells'.symm.trans h)
    exact ⟨hnodup, hmem⟩
  · rintro ⟨hnodup, hmem⟩
    exact ⟨cells, h, hnodup, hmem⟩

/-- Only the printed text is found again in the disk. -/
theorem print_ne (hparse : grid.parse cellStr = some cell) (h : grid.print cell ≠ cellStr)
    (other : Cell) : grid.print other ≠ cellStr := by
  rintro rfl
  rw [grid.parse_print] at hparse
  obtain rfl := Option.some.inj hparse
  exact h rfl

theorem getNeighbors_zero (hparse : grid.parse cellStr = some cell) :
    grid.NamesDisk (grid.getNeighbors cellStr 0) cell 0 := by
  rw [namesDisk_iff_cells (map_parse_getNeighbors hparse), if_neg (by decide)]
  refine ⟨List.nodup_singleton cell, fun other => ?_⟩
  rw [List.mem_singleton, ← grid.distance_eq_zero cell other]
  exact nonpos_iff_eq_zero.symm

theorem getNeighbors_printed (cell : Cell) (hrings : rings > 0) :
    grid.NamesDisk (grid.getNeighbors (grid.print cell) rings) cell rings := by
  rw [namesDisk_iff_cells (map_parse_getNeighbors (grid.parse_print cell)), if_pos hrings]
  constructor
  · refine List.nodup_cons.mpr ⟨?_, (grid.nodup_gridDisk cell rings).filter _⟩
    intro hmem
    exact absurd rfl (of_decide_eq_true (List.mem_filter.mp hmem).2)
  · intro other
    rw [← grid.mem_gridDisk, List.mem_cons, List.mem_filter]
    constructor
    · rintro (rfl | ⟨hmem, _⟩)
      · exact mem_gridDisk_self other rings
      · exact hmem
    · intro hmem
      by_cases heq : other = cell
      · exact .inl heq
      · exact .inr ⟨hmem, decide_eq_true (print_injective.ne heq)⟩

theorem not_namesDisk (hparse : grid.parse cellStr = some cell) (hrings : rings > 0)
    (h : grid.print cell ≠ cellStr) :
    ¬ grid.NamesDisk (grid.getNeighbors cellStr rings) cell rings := by
  have hkept : ((grid.gridDisk cell rings).filter fun other => grid.print other ≠ cellStr) =
      grid.gridDisk cell rings :=
    List.filter_eq_self.mpr fun other _ => decide_eq_true (print_ne hparse h other)
  rw [namesDisk_iff_cells (map_parse_getNeighbors hparse), if_pos hrings, hkept]
  rintro ⟨hnodup, _⟩
  exact (List.nodup_cons.mp hnodup).1 (mem_gridDisk_self cell rings)

/-- The cells of the disk are named once each exactly where no ring is asked for
or the text is the printed one: otherwise the centre is named twice. -/
theorem getNeighbors_namesDisk_iff (hparse : grid.parse cellStr = some cell) :
    grid.NamesDisk (grid.getNeighbors cellStr rings) cell rings ↔
      rings = 0 ∨ grid.print cell = cellStr := by
  by_cases hrings : rings > 0
  · have hne : rings ≠ 0 := by
      rintro rfl
      exact absurd hrings (by decide)
    rw [or_iff_right hne]
    constructor
    · intro hnames
      by_contra h
      exact not_namesDisk hparse hrings h hnames
    · rintro rfl
      exact getNeighbors_printed cell hrings
  · obtain rfl : rings = 0 := UInt32.le_zero_iff.mp (UInt32.not_lt.mp hrings)
    exact iff_of_true (getNeighbors_zero hparse) (.inl rfl)

/-- The printed texts of a cell of resolution 5 and of its six neighbors. -/
def sampleTexts : Fin 7 → String :=
  !["85283473fffffff", "85283447fffffff", "8528347bfffffff", "85283463fffffff",
    "85283477fffffff", "8528340ffffffff", "8528340bfffffff"]

def sampleHops (cell other : Fin 7) : ℕ :=
  if cell = other then 0 else if cell = 0 ∨ other = 0 then 1 else 2

/-- These cells, with either case of a letter read and lower case printed. -/
def sampleGrid : CellGrid (Fin 7) where
  parse := fun text =>
    (List.finRange 7).find? fun cell => (sampleTexts cell).toList = text.toList.map Char.toLower
  print := sampleTexts
  distance := fun cell other => sampleHops cell other
  gridDisk := fun cell rings =>
    (List.finRange 7).filter fun other => sampleHops cell other ≤ rings.toNat
  parse_print := by decide
  distance_eq_zero := by
    intro cell other
    rw [Nat.cast_eq_zero]
    revert cell other
    decide
  nodup_gridDisk := fun _ _ => (List.nodup_finRange 7).filter _
  mem_gridDisk := by
    intro cell rings other
    rw [List.mem_filter, Nat.cast_le, decide_eq_true_iff]
    exact and_iff_right (List.mem_finRange other)

theorem sampleGrid_parse_upper : sampleGrid.parse "85283473FFFFFFF" = some 0 := by decide

theorem getNeighbors_namesDisk_iff_ring :
    sampleGrid.NamesDisk (sampleGrid.getNeighbors "85283473fffffff" 1) 0 1 ∧
      ¬ sampleGrid.NamesDisk (sampleGrid.getNeighbors "85283473FFFFFFF" 1) 0 1 :=
  ⟨(getNeighbors_namesDisk_iff (by decide)).mpr (.inr rfl),
    fun h => absurd ((getNeighbors_namesDisk_iff sampleGrid_parse_upper).mp h) (by decide)⟩

/-- With a ring around it, a cell written in upper case is named twice. -/
theorem upper_case_center_twice :
    ¬ ∀ (Cell : Type) (grid : CellGrid Cell) (cellStr : String) (cell : Cell) (rings : UInt32),
      grid.parse cellStr = some cell →
        grid.NamesDisk (grid.getNeighbors cellStr rings) cell rings := by
  intro h
  exact not_namesDisk sampleGrid_parse_upper (by decide) (by decide)
    (h _ sampleGrid "85283473FFFFFFF" 0 1 sampleGrid_parse_upper)

end CellGrid

/-- `is_valid_cell`, with the parser of the cell type. -/
def isValidCell {Cell : Type*} (fromStr : String → Option Cell) (cellStr : String) : Bool :=
  if cellStr.utf8ByteSize ≠ 15 then false else (fromStr cellStr).isSome

/-- Which 64 bit numbers are cell indexes. Of the layout it is known that the
top byte of a cell index is 8: a zero bit, the mode 1 and three zero bits. -/
structure IndexFormat where
  isCell : UInt64 → Bool
  mode_of_isCell : ∀ index, isCell index = true → index.toNat / 2 ^ 56 = 8

/-- The resolution, in the bits 52 to 55. -/
def resolution (index : UInt64) : ℕ := index.toNat / 2 ^ 52 % 16

def locationResolution : ℕ := 7

namespace IndexFormat

/-- `CellIndex::from_str`: the hexadecimal texts of the cell indexes. -/
def fromStr (format : IndexFormat) (cellStr : String) : Option UInt64 :=
  match fromStrRadix 16 (2 ^ 64 - 1) cellStr.toList with
  | .error _ => none
  | .ok n => if format.isCell (UInt64.ofNat n) then some (UInt64.ofNat n) else none

variable {format : IndexFormat} {cellStr : String} {index : UInt64}

theorem fromStr_eq_some (h : format.fromStr cellStr = some index) :
    IsNumeral 16 cellStr.toList index.toNat ∧ format.isCell index = true := by
  unfold fromStr at h
  split at h
  · cases h
  · next n hread =>
      obtain ⟨hnumeral, hle⟩ := (fromStrRadix_ok_iff (by decide)).mp hread
      split at h
      · next hcell =>
          obtain rfl := Option.some.inj h
          rw [UInt64.toNat_ofNat_of_lt' (Nat.lt_of_le_pred (by decide) hle)]
          exact ⟨hnumeral, hcell⟩
      · cases h

theorem numeral_ascii {radix n : ℕ} {cs : List Char} (h : IsNumeral radix cs n) :
    ∀ c ∈ cs, c.toNat < 128 := by
  obtain ⟨digits, rfl | rfl, _, hdigits, _⟩ := h
  · exact fun c hc => isDigit_ascii (hdigits c hc)
  · intro c hc
    rcases List.mem_cons.mp hc with rfl | hc
    · decide
    · exact isDigit_ascii (hdigits c hc)

/-- Fifteen bytes are read as fifteen digits. A sign would leave fourteen, which
are too few for the mode. -/
theorem digits_of_fromStr (h : format.fromStr cellStr = some index)
    (hsize : cellStr.utf8ByteSize = 15) :
    cellStr.toList.length = 15 ∧ (∀ c ∈ cellStr.toList, isDigit 16 c = true) ∧
      digitsValue 16 cellStr.toList = index.toNat := by
  obtain ⟨hnumeral, hcell⟩ := fromStr_eq_some h
  have hmode := format.mode_of_isCell index hcell
  have hlength : cellStr.toList.length = 15 := by
    rw [← utf8ByteSize_ofList_ascii (numeral_ascii hnumeral), String.ofList_toList, hsize]
  obtain ⟨digits, htext, _, hdigits, hvalue⟩ := hnumeral
  rcases htext with htext | htext
  · rw [htext] at hlength ⊢
    exact ⟨hlength, hdigits, hvalue⟩
  · have hlt := digitsValue_lt hdigits
    rw [htext, List.length_cons] at hlength
    have hshort : digits.length = 14 := by omega
    rw [hshort, hvalue] at hlt
    omega

/-- The resolution stands in the second of fifteen digits. -/
theorem toDigit_second (h : format.fromStr cellStr = some index)
    (hsize : cellStr.utf8ByteSize = 15) :
    ∃ first second rest, cellStr.toList = first :: second :: rest ∧
      toDigit 16 second = some (resolution index) := by
  obtain ⟨hlength, hdigits, hvalue⟩ := digits_of_fromStr h hsize
  match htext : cellStr.toList, hlength with
  | first :: second :: rest, hlength =>
      rw [htext] at hdigits hvalue
      have hrest : rest.length = 13 := by simpa using hlength
      obtain ⟨hfirst, htail⟩ := List.forall_mem_cons.mp hdigits
      obtain ⟨hsecond, htail⟩ := List.forall_mem_cons.mp htail
      obtain ⟨x, hx⟩ := isDigit_eq_true_iff.mp hfirst
      obtain ⟨y, hy⟩ := isDigit_eq_true_iff.mp hsecond
      refine ⟨first, second, rest, rfl, ?_⟩
      rw [digitsValue_cons, digitsValue_cons, List.length_cons, hrest, hx, hy,
        Option.getD_some, Option.getD_some] at hvalue
      have hlow := digitsValue_lt htail
      have hydigit := toDigit_lt hy
      rw [hrest] at hlow
      rw [hy, resolution, ← hvalue]
      congr 1
      omega

/-- Fifteen hexadecimal digits of a cell index. -/
theorem isValidCell_iff_digits :
    isValidCell format.fromStr cellStr = true ↔
      (cellStr.toList.length = 15 ∧ ∀ c ∈ cellStr.toList, isDigit 16 c = true) ∧
        format.isCell (UInt64.ofNat (digitsValue 16 cellStr.toList)) = true := by
  unfold isValidCell
  constructor
  · intro h
    split at h
    · cases h
    · next hsize =>
        obtain ⟨index, hindex⟩ := Option.isSome_iff_exists.mp h
        obtain ⟨hlength, hdigits, hvalue⟩ := digits_of_fromStr hindex (not_not.mp hsize)
        rw [hvalue, UInt64.ofNat_toNat]
        exact ⟨⟨hlength, hdigits⟩, (fromStr_eq_some hindex).2⟩
  · rintro ⟨⟨hlength, hdigits⟩, hcell⟩
    have hsize : cellStr.utf8ByteSize = 15 := by
      rw [← hlength, ← utf8ByteSize_ofList_ascii fun c hc => isDigit_ascii (hdigits c hc),
        String.ofList_toList]
    have hne : cellStr.toList ≠ [] := List.ne_nil_of_length_pos (by omega)
    have hlt := digitsValue_lt hdigits
    rw [hlength] at hlt
    have hread : fromStrRadix 16 (2 ^ 64 - 1) cellStr.toList =
        .ok (digitsValue 16 cellStr.toList) :=
      (fromStrRadix_ok_iff (by decide)).mpr
        ⟨⟨cellStr.toList, .inl rfl, hne, hdigits, rfl⟩, by omega⟩
    rw [if_neg (not_not_intro hsize), fromStr, hread]
    simp [hcell]

theorem toDigit_eq_seven_iff {c : Char} : toDigit 16 c = some 7 ↔ c = '7' := by
  constructor
  · intro h
    have hvalue := (Option.filter_eq_some_iff.mp h).1
    split at hvalue
    · next hdigit =>
        have hdiff := Option.some.inj hvalue
        apply Char.toNat_inj.mp
        rw [← Nat.sub_add_cancel hdigit.1, hdiff]
        rfl
    · split at hvalue
      · have hdiff := Option.some.inj hvalue
        omega
      · split at hvalue
        · have hdiff := Option.some.inj hvalue
          omega
        · cases hvalue
  · rintro rfl
    rfl

/-- A text with the right length and a digit 7 in the second place. -/
theorem isValidCell_resolution_iff (format : IndexFormat) (cellStr : String) :
    (isValidCell format.fromStr cellStr = true →
        ∃ index, format.fromStr cellStr = some index ∧ resolution index = locationResolution) ↔
      cellStr.utf8ByteSize ≠ 15 ∨ format.fromStr cellStr = none ∨
        cellStr.toList[1]? = some '7' := by
  by_cases hsize : cellStr.utf8ByteSize = 15
  · rw [or_iff_right (not_not_intro hsize), isValidCell, if_neg (not_not_intro hsize)]
    cases hread : format.fromStr cellStr with
    | none => simp
    | some index =>
        obtain ⟨first, second, rest, htext, hdigit⟩ := toDigit_second hread hsize
        have hseven : resolution index = 7 ↔ second = '7' := by
          rw [← toDigit_eq_seven_iff, hdigit, Option.some.injEq]
        simp [htext, locationResolution, hseven]
  · simp [isValidCell, hsize]

/-- Two cell indexes, of the resolutions 7 and 9. -/
def sampleFormat : IndexFormat where
  isCell := fun index => index = 0x872830828ffffff ∨ index = 0x8928308280fffff
  mode_of_isCell := by
    intro index h
    rcases of_decide_eq_true h with rfl | rfl <;> rfl

theorem finer_cell_valid :
    ¬ ∀ (format : IndexFormat) (cellStr : String), isValidCell format.fromStr cellStr = true →
      ∃ index, format.fromStr cellStr = some index ∧ resolution index = locationResolution := by
  intro h
  have hread : sampleFormat.fromStr "8928308280fffff" = some 0x8928308280fffff := by decide
  obtain ⟨index, hindex, hresolution⟩ := h sampleFormat "8928308280fffff" (by decide)
  obtain rfl := Option.some.inj (hread.symm.trans hindex)
  exact absurd hresolution (by decide)

end IndexFormat

end CivicConnect.RustApi
