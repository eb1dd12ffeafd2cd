import Mathlib.Algebra.Ring.Nat
import Mathlib.Data.List.Basic

/-!
# Fields joined by a separator

A list of fields is joined with a separator between them, and the separator may
also occur inside a field. What the joined list tells about the fields is the
sequence of pieces between separators; the places where the fields begin are
lost.
-/

universe u

namespace Joined

variable {α : Type u} [DecidableEq α] {sep : α}

def join (sep : α) (fields : List (List α)) : List α := [sep].intercalate fields

/-- The pieces between separators, of all fields one after the other. -/
def pieces (sep : α) (fields : List (List α)) : List (List α) :=
  fields.flatMap fun field => field.splitOn sep

@[simp] theorem pieces_cons (field : List α) (fields : List (List α)) :
    pieces sep (field :: fields) = field.splitOn sep ++ pieces sep fields := rfl

theorem splitOn_injective {field field' : List α} (h : field.splitOn sep = field'.splitOn sep) :
    field = field' := by
  have hback := congrArg (List.intercalate [sep]) h
  rwa [List.intercalate_splitOn, List.intercalate_splitOn] at hback

omit [DecidableEq α] in
theorem join_singleton (field : List α) : join sep [field] = field := List.intercalate_singleton

omit [DecidableEq α] in
theorem join_cons (field : List α) {fields : List (List α)} (h : fields ≠ []) :
    join sep (field :: fields) = field ++ sep :: join sep fields := by
  rw [join, List.intercalate_cons_of_ne_nil h, List.append_assoc]
  rfl

theorem splitOn_join {fields : List (List α)} (h : fields ≠ []) :
    (join sep fields).splitOn sep = pieces sep fields := by
  induction fields with
  | nil => exact absurd rfl h
  | cons field fields ih =>
      cases fields with
      | nil => simp [join, pieces]
      | cons next fields =>
          have hnext := ih (List.cons_ne_nil next fields)
          rw [pieces_cons, ← hnext, join_cons field (List.cons_ne_nil next fields)]
          exact List.splitOn_append_cons_self _ _

theorem join_eq_join_iff {fields fields' : List (List α)} (h : fields ≠ []) (h' : fields' ≠ []) :
    join sep fields = join sep fields' ↔ pieces sep fields = pieces sep fields' := by
  rw [← splitOn_join h, ← splitOn_join h']
  constructor
  · intro heq
    rw [heq]
  · exact splitOn_injective

theorem not_mem_of_mem_splitOn {field piece : List α} (h : piece ∈ field.splitOn sep) :
    sep ∉ piece := by
  induction field generalizing piece with
  | nil =>
      rw [List.splitOn_nil, List.mem_singleton] at h
      rw [h]
      exact List.not_mem_nil
  | cons a field ih =>
      rw [List.splitOn_cons_eq_if_modifyHead] at h
      split at h
      · rcases List.mem_cons.mp h with rfl | hrest
        · exact List.not_mem_nil
        · exact ih hrest
      · next hne =>
          cases hsplit : field.splitOn sep with
          | nil => simp [hsplit] at h
          | cons head pieces =>
              rw [hsplit, List.modifyHead_cons] at h
              rw [hsplit] at ih
              rcases List.mem_cons.mp h with rfl | hrest
              · intro hmem
                rcases List.mem_cons.mp hmem with rfl | htail
                · exact hne (beq_self_eq_true _)
                · exact ih List.mem_cons_self htail
              · exact ih (List.mem_cons_of_mem head hrest)

theorem length_splitOn (field : List α) :
    (field.splitOn sep).length = field.count sep + 1 := by
  induction field with
  | nil => rfl
  | cons a field ih =>
      rw [List.splitOn_cons_eq_if_modifyHead, List.count_cons]
      split
      · rw [List.length_cons, ih]
      · rw [List.length_modifyHead, ih, Nat.add_zero]

/-- The fields can be told from the pieces and the number of separators in each
of them. -/
theorem eq_of_pieces_eq {fields fields' : List (List α)}
    (hcount : fields.map (List.count sep) = fields'.map (List.count sep))
    (h : pieces sep fields = pieces sep fields') : fields = fields' := by
  induction fields generalizing fields' with
  | nil =>
      rw [List.map_nil] at hcount
      exact (List.map_eq_nil_iff.mp hcount.symm).symm
  | cons field fields ih =>
      cases fields' with
      | nil => cases hcount
      | cons field' fields' =>
          obtain ⟨hfirst, hrest⟩ := List.cons.inj hcount
          have hlength : (field.splitOn sep).length = (field'.splitOn sep).length := by
            rw [length_splitOn, length_splitOn, hfirst]
          rw [pieces_cons, pieces_cons] at h
          obtain ⟨hsplit, hpieces⟩ := List.append_inj h hlength
          rw [splitOn_injective hsplit, ih hrest hpieces]

/-- Equal joined lists have equal fields exactly where they are cut alike. -/
theorem fields_eq_iff {fields fields' : List (List α)}
    (h : pieces sep fields = pieces sep fields') :
    fields = fields' ↔ fields.map (List.count sep) = fields'.map (List.count sep) := by
  constructor
  · rintro rfl
    rfl
  · intro hcount
    exact eq_of_pieces_eq hcount h

theorem length_pieces (fields : List (List α)) :
    (pieces sep fields).length = (fields.map (List.count sep)).sum + fields.length := by
  induction fields with
  | nil => rfl
  | cons field fields ih =>
      rw [pieces_cons, List.length_append, length_splitOn, ih, List.map_cons, List.sum_cons,
        List.length_cons]
      omega

/-- The pieces of a list, from one of them on, can be read back. -/
theorem splitOn_join_drop {field : List α} {n : ℕ} (h : n < (field.splitOn sep).length) :
    (join sep ((field.splitOn sep).drop n)).splitOn sep = (field.splitOn sep).drop n := by
  apply List.splitOn_intercalate
  · intro piece hpiece
    exact not_mem_of_mem_splitOn (List.mem_of_mem_drop hpiece)
  · simpa using h

omit [DecidableEq α] in
theorem join_append {fields fields' : List (List α)} (h : fields ≠ []) (h' : fields' ≠ []) :
    join sep (fields ++ fields') = join sep fields ++ sep :: join sep fields' := by
  induction fields with
  | nil => exact absurd rfl h
  | cons field fields ih =>
      rw [List.cons_append]
      by_cases hnil : fields = []
      · rw [hnil, List.nil_append, join_cons field h', join_singleton]
      · rw [join_cons field (List.append_ne_nil_of_left_ne_nil hnil fields'), ih hnil,
          join_cons field hnil, List.append_assoc, List.cons_append]

omit [DecidableEq α] in
theorem join_drop_suffix (fields : List (List α)) (n : ℕ) :
    join sep (fields.drop n) <:+ join sep fields := by
  induction fields generalizing n with
  | nil => cases n <;> exact List.suffix_rfl
  | cons field fields ih =>
      cases n with
      | zero => exact List.suffix_rfl
      | succ n =>
          refine (ih n).trans ?_
          cases fields with
          | nil => exact List.nil_suffix
          | cons next fields =>
              rw [join_cons field (List.cons_ne_nil next fields)]
              exact (List.suffix_cons sep _).trans (List.suffix_append field _)

end Joined
