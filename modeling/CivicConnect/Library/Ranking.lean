import Mathlib.Data.List.Basic

/-!
# Rankings

Executable total orders, how they are put together, and the first element of a
list in such an order.
-/

universe u v

namespace Ranking

variable {α : Type u} {β : Type v}

/-- The laws of an executable total order. -/
structure Order (le : α → α → Bool) : Prop where
  total : ∀ a b, le a b = true ∨ le b a = true
  trans : ∀ a b c, le a b = true → le b c = true → le a c = true
  antisymm : ∀ a b, le a b = true → le b a = true → a = b

/-- By rank, and by `le` where the ranks are the same. -/
def byRank (rank : α → ℕ) (le : α → α → Bool) (a b : α) : Bool :=
  rank a < rank b || (rank a = rank b && le a b)

/-- The lexicographic order of lists, by the ranks of their elements. -/
def lexLE (rank : α → ℕ) : List α → List α → Bool
  | [], _ => true
  | _ :: _, [] => false
  | a :: as, b :: bs => rank a < rank b || (rank a = rank b && lexLE rank as bs)

variable {le : α → α → Bool} {rank : α → ℕ}

theorem byRank_iff {a b : α} :
    byRank rank le a b = true ↔ rank a < rank b ∨ rank a = rank b ∧ le a b = true := by
  simp [byRank]

theorem lexLE_cons_iff {a b : α} {as bs : List α} :
    lexLE rank (a :: as) (b :: bs) = true ↔
      rank a < rank b ∨ rank a = rank b ∧ lexLE rank as bs = true := by
  simp [lexLE]

section

variable {l m n : ℕ} {P Q R : Prop}

theorem precedes_total (h : P ∨ Q) : (m < n ∨ m = n ∧ P) ∨ (n < m ∨ n = m ∧ Q) := by
  rcases Nat.lt_trichotomy m n with hlt | heq | hlt
  · exact Or.inl (Or.inl hlt)
  · rcases h with hp | hq
    · exact Or.inl (Or.inr ⟨heq, hp⟩)
    · exact Or.inr (Or.inr ⟨heq.symm, hq⟩)
  · exact Or.inr (Or.inl hlt)

theorem precedes_trans (h : P → Q → R) (hlm : l < m ∨ l = m ∧ P) (hmn : m < n ∨ m = n ∧ Q) :
    l < n ∨ l = n ∧ R := by
  rcases hlm with hlm | ⟨hlm, hp⟩
  · left
    omega
  · rcases hmn with hmn | ⟨hmn, hq⟩
    · left
      omega
    · exact Or.inr ⟨hlm.trans hmn, h hp hq⟩

theorem precedes_antisymm (hmn : m < n ∨ m = n ∧ P) (hnm : n < m ∨ n = m ∧ Q) :
    m = n ∧ P ∧ Q := by
  rcases hmn with hmn | ⟨hmn, hp⟩
  · omega
  · rcases hnm with hnm | ⟨_, hq⟩
    · omega
    · exact ⟨hmn, hp, hq⟩

end

namespace Order

theorem byRank (h : Order le) (rank : α → ℕ) : Order (byRank rank le) where
  total a b := by
    rw [byRank_iff, byRank_iff]
    exact precedes_total (h.total a b)
  trans a b c hab hbc := by
    rw [byRank_iff] at hab hbc ⊢
    exact precedes_trans (h.trans a b c) hab hbc
  antisymm a b hab hba := by
    rw [byRank_iff] at hab hba
    obtain ⟨_, hle, hle'⟩ := precedes_antisymm hab hba
    exact h.antisymm a b hle hle'

theorem lexLE (hrank : Function.Injective rank) : Order (lexLE rank) where
  total as bs := by
    induction as generalizing bs with
    | nil => exact Or.inl rfl
    | cons a as ih =>
        cases bs with
        | nil => exact Or.inr rfl
        | cons b bs =>
            rw [lexLE_cons_iff, lexLE_cons_iff]
            exact precedes_total (ih bs)
  trans as bs cs hab hbc := by
    induction as generalizing bs cs with
    | nil => rfl
    | cons a as ih =>
        cases bs with
        | nil => cases hab
        | cons b bs =>
            cases cs with
            | nil => cases hbc
            | cons c cs =>
                rw [lexLE_cons_iff] at hab hbc ⊢
                exact precedes_trans (ih bs cs) hab hbc
  antisymm as bs hab hba := by
    induction as generalizing bs with
    | nil =>
        cases bs with
        | nil => rfl
        | cons b bs => cases hba
    | cons a as ih =>
        cases bs with
        | nil => cases hab
        | cons b bs =>
            rw [lexLE_cons_iff] at hab hba
            obtain ⟨heq, hle, hle'⟩ := precedes_antisymm hab hba
            rw [hrank heq, ih bs hle hle']

theorem comap {f : β → α} (h : Order le) (hf : Function.Injective f) :
    Order fun a b => le (f a) (f b) where
  total a b := h.total (f a) (f b)
  trans a b c := h.trans (f a) (f b) (f c)
  antisymm a b hab hba := hf (h.antisymm (f a) (f b) hab hba)

/-- What sorting puts first is the least element. -/
theorem head?_mergeSort_eq_some_iff (h : Order le) {l : List α} {a : α} :
    (l.mergeSort le).head? = some a ↔ a ∈ l ∧ ∀ b ∈ l, le a b = true := by
  have hrefl : ∀ a, le a a = true := fun a => (h.total a a).elim id id
  have hsorted : (l.mergeSort le).Pairwise fun a b => le a b = true :=
    List.pairwise_mergeSort h.trans (fun a b => by simpa using h.total a b) l
  have hmem : ∀ b, b ∈ l.mergeSort le ↔ b ∈ l := fun _ => List.mem_mergeSort
  generalize l.mergeSort le = sorted at hsorted hmem
  cases sorted with
  | nil =>
      apply iff_of_false nofun
      rintro ⟨ha, _⟩
      exact List.not_mem_nil ((hmem a).mpr ha)
  | cons first rest =>
      have hfirst : ∀ b ∈ l, le first b = true := by
        intro b hb
        rcases List.mem_cons.mp ((hmem b).mpr hb) with rfl | hrest
        · exact hrefl b
        · exact (List.pairwise_cons.mp hsorted).1 b hrest
      constructor
      · intro heq
        obtain rfl := Option.some.inj heq
        exact ⟨(hmem first).mp List.mem_cons_self, hfirst⟩
      · rintro ⟨ha, hleast⟩
        have hmemFirst : first ∈ l := (hmem first).mp List.mem_cons_self
        rw [h.antisymm a first (hleast first hmemFirst) (hfirst a ha)]
        rfl

end Order

/-- Strings in the order of their code points. -/
theorem order_codePoints : Order fun a b : String => lexLE Char.toNat a.toList b.toList := by
  have hchars : Function.Injective Char.toNat := fun a b h => Char.toNat_inj.mp h
  exact (Order.lexLE hchars).comap fun a b h => String.toList_inj.mp h

end Ranking
