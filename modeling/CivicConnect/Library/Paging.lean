import Mathlib.Data.List.Basic
import Mathlib.Order.Monotone.Basic

/-!
# Paging

A page of a list in strict order holds an element exactly where the number of
elements before it falls into the bounds of the page. A reader who takes one
page after another of a list that others change meanwhile has, for each
element, the sequence of these numbers: a fall across the bound of the next
page hides the element, a rise across it shows the element again.
-/

universe u

namespace Paging

section

variable {α : Type u} {lt : α → α → Bool} {l : List α} {x : α} {limit offset : ℕ}

/-- `limit` elements after the first `offset` ones. -/
def page (l : List α) (limit offset : ℕ) : List α := (l.drop offset).take limit

def before (lt : α → α → Bool) (l : List α) (x : α) : ℕ := l.countP fun y => lt y x

theorem length_page (l : List α) (limit offset : ℕ) :
    (page l limit offset).length = min limit (l.length - offset) := by
  rw [page, List.length_take, List.length_drop]

theorem mem_page_iff_getElem? :
    x ∈ page l limit offset ↔ ∃ i, offset ≤ i ∧ i < offset + limit ∧ l[i]? = some x := by
  rw [page, List.mem_iff_getElem?]
  constructor
  · rintro ⟨j, hj⟩
    rw [List.getElem?_take] at hj
    split at hj
    · rw [List.getElem?_drop] at hj
      exact ⟨offset + j, by omega, by omega, hj⟩
    · cases hj
  · rintro ⟨i, hle, hlt, hi⟩
    refine ⟨i - offset, ?_⟩
    rw [List.getElem?_take_of_lt (by omega), List.getElem?_drop, Nat.add_sub_cancel' hle]
    exact hi

/-- In strict order an element stands at the position that counts the elements
before it. -/
theorem getElem?_eq_some_iff_before (hasymm : ∀ a b, lt a b = true → lt b a = false)
    (hl : l.Pairwise fun a b => lt a b = true) {i : ℕ} :
    l[i]? = some x ↔ x ∈ l ∧ before lt l x = i := by
  have hirrefl : ∀ a, lt a a = false := fun a => by
    cases h : lt a a with
    | false => rfl
    | true => exact h.symm.trans (hasymm a a h)
  induction l generalizing i with
  | nil => simp
  | cons a l ih =>
      obtain ⟨hhead, htail⟩ := List.pairwise_cons.mp hl
      have hnone : before lt l a = 0 := by
        apply List.countP_eq_zero.mpr
        intro b hb
        simp [hasymm a b (hhead b hb)]
      cases i with
      | zero =>
          simp only [before, List.getElem?_cons_zero, Option.some.injEq, List.mem_cons]
          constructor
          · rintro rfl
            exact ⟨Or.inl rfl, by rw [List.countP_cons, hirrefl]; exact hnone⟩
          · rintro ⟨rfl | hx, hzero⟩
            · rfl
            · rw [List.countP_cons, hhead x hx] at hzero
              simp at hzero
      | succ i =>
          have hrest : l[i]? = some x ↔ x ∈ l ∧ before lt l x = i := ih htail
          rw [List.getElem?_cons_succ, hrest, List.mem_cons, before, before, List.countP_cons]
          constructor
          · rintro ⟨hx, hcount⟩
            exact ⟨Or.inr hx, by rw [hhead x hx, hcount]; rfl⟩
          · rintro ⟨rfl | hx, hcount⟩
            · rw [hirrefl] at hcount
              rw [before] at hnone
              simp [hnone] at hcount
            · rw [hhead x hx] at hcount
              exact ⟨hx, by simpa using hcount⟩

theorem mem_page_iff (hasymm : ∀ a b, lt a b = true → lt b a = false)
    (hl : l.Pairwise fun a b => lt a b = true) :
    x ∈ page l limit offset ↔
      x ∈ l ∧ offset ≤ before lt l x ∧ before lt l x < offset + limit := by
  rw [mem_page_iff_getElem?]
  constructor
  · rintro ⟨i, hle, hlt, hi⟩
    obtain ⟨hx, rfl⟩ := (getElem?_eq_some_iff_before hasymm hl).mp hi
    exact ⟨hx, hle, hlt⟩
  · rintro ⟨hx, hle, hlt⟩
    exact ⟨before lt l x, hle, hlt, (getElem?_eq_some_iff_before hasymm hl).mpr ⟨hx, rfl⟩⟩

end

section

variable {n m k k' : ℕ} {p : ℕ → ℕ}

/-- Position `i` lies on page `k`, where a page has `n` positions. -/
def OnPage (n k i : ℕ) : Prop := n * k ≤ i ∧ i < n * (k + 1)

/-- After page `k` the position falls from a later page to one that is read. -/
def Slips (n : ℕ) (p : ℕ → ℕ) (k : ℕ) : Prop := n * (k + 1) ≤ p k ∧ p (k + 1) < n * (k + 1)

/-- After page `k` the position rises from a page that is read to a later one. -/
def Rises (n : ℕ) (p : ℕ → ℕ) (k : ℕ) : Prop := p k < n * (k + 1) ∧ n * (k + 1) ≤ p (k + 1)

/-- What relates each value to the next one relates any two, in their order. -/
theorem rel_of_step {α : Type u} {r : α → α → Prop} (hrefl : ∀ a, r a a)
    (htrans : ∀ {a b c}, r a b → r b c → r a c) {f : ℕ → α} (hstep : ∀ k < m, r (f k) (f (k + 1)))
    (i j : ℕ) (hij : i ≤ j) (hj : j ≤ m) : r (f i) (f j) := by
  induction j, hij using Nat.le_induction with
  | base => exact hrefl (f i)
  | succ j _ ih => exact htrans (ih (Nat.le_of_succ_le hj)) (hstep j hj)

/-- Between a page that the position has not left behind and one that it has
not yet reached it is read, unless it slips. -/
theorem exists_onPage (hkm : k ≤ m) (hstart : n * k ≤ p k) (hend : p m < n * (m + 1))
    (hslip : ∀ j, k ≤ j → j < m → ¬ Slips n p j) : ∃ j, k ≤ j ∧ j ≤ m ∧ OnPage n j (p j) := by
  induction m, hkm using Nat.le_induction with
  | base => exact ⟨k, le_rfl, le_rfl, hstart, hend⟩
  | succ m hkm ih =>
      by_cases hreached : p m < n * (m + 1)
      · obtain ⟨j, hkj, hjm, hj⟩ := ih hreached fun j hkj hjm => hslip j hkj (by omega)
        exact ⟨j, hkj, by omega, hj⟩
      · have hnext : n * (m + 1) ≤ p (m + 1) := by
          by_contra hlt
          exact hslip m hkm (Nat.lt_succ_self m) ⟨not_lt.mp hreached, not_le.mp hlt⟩
        exact ⟨m + 1, by omega, le_rfl, hnext, hend⟩

theorem OnPage.eq_of_antitone (hp : ∀ i j, i ≤ j → j ≤ m → p j ≤ p i) (hk : k ≤ m)
    (hk' : k' ≤ m) (h : OnPage n k (p k)) (h' : OnPage n k' (p k')) : k = k' := by
  have hle : ∀ {i j}, i < j → j ≤ m → OnPage n i (p i) → ¬ OnPage n j (p j) := by
    intro i j hij hj hi hj'
    have hbounds : n * (i + 1) ≤ n * j := Nat.mul_le_mul_left n hij
    have hfall := hp i j hij.le hj
    have hbelow := hi.2
    have habove := hj'.1
    omega
  rcases Nat.lt_trichotomy k k' with hlt | heq | hlt
  · exact absurd h' (hle hlt hk' h)
  · exact heq
  · exact absurd h (hle hlt hk h')

/-- A position that never rises is read exactly where it does not slip. -/
theorem exists_onPage_iff_of_antitone (hp : ∀ i j, i ≤ j → j ≤ m → p j ≤ p i)
    (hend : p m < n * (m + 1)) :
    (∃ k ≤ m, OnPage n k (p k)) ↔ ∀ k < m, ¬ Slips n p k := by
  constructor
  · rintro ⟨k, hk, hread⟩ j hj ⟨habove, hbelow⟩
    rcases Nat.lt_or_ge j k with hjk | hkj
    · have hbounds : n * (j + 1) ≤ n * k := Nat.mul_le_mul_left n hjk
      have hfall := hp (j + 1) k hjk hk
      have hreached := hread.1
      omega
    · have hbounds : n * (k + 1) ≤ n * (j + 1) := Nat.mul_le_mul_left n (by omega)
      have hfall := hp k j hkj hj.le
      have hleft := hread.2
      omega
  · intro hslip
    obtain ⟨k, _, hk, hread⟩ := exists_onPage (Nat.zero_le m) (by simp) hend
      fun j _ hj => hslip j hj
    exact ⟨k, hk, hread⟩

theorem not_slips_of_monotone (hp : ∀ i j, i ≤ j → j ≤ m → p i ≤ p j) (hk : k < m) :
    ¬ Slips n p k := by
  rintro ⟨habove, hbelow⟩
  have hrise := hp k (k + 1) (Nat.le_succ k) hk
  omega

/-- A position that never falls is read once exactly where it never rises
across the bound of the next page. -/
theorem onPage_unique_iff_of_monotone (hp : ∀ i j, i ≤ j → j ≤ m → p i ≤ p j)
    (hend : p m < n * (m + 1)) :
    (∀ k k', k ≤ m → k' ≤ m → OnPage n k (p k) → OnPage n k' (p k') → k = k') ↔
      ∀ k < m, ¬ Rises n p k := by
  have hslip : ∀ k < m, ¬ Slips n p k := fun k hk => not_slips_of_monotone hp hk
  constructor
  · rintro honce k hk ⟨hbelow, habove⟩
    obtain ⟨i, _, hi, hread⟩ := exists_onPage (Nat.zero_le k) (by simp) hbelow
      fun j _ hj => hslip j (by omega)
    obtain ⟨j, hkj, hj, hagain⟩ := exists_onPage hk habove hend fun j _ hj => hslip j hj
    have heq := honce i j (by omega) hj hread hagain
    omega
  · intro hrise
    have hleft : ∀ {i j}, i ≤ j → j ≤ m → OnPage n i (p i) → p j < n * (j + 1) := by
      intro i j hij hj hread
      induction j, hij using Nat.le_induction with
      | base => exact hread.2
      | succ j hij ih =>
          have hstays : p (j + 1) < n * (j + 1) := by
            by_contra hge
            exact hrise j (by omega) ⟨ih (by omega), not_lt.mp hge⟩
          exact hstays.trans_le (Nat.mul_le_mul_left n (Nat.le_succ _))
    have hlater : ∀ {i j}, i < j → j ≤ m → OnPage n i (p i) → ¬ OnPage n j (p j) := by
      intro i j hij hj hread hagain
      obtain ⟨j, rfl⟩ : ∃ j', j = j' + 1 := ⟨j - 1, by omega⟩
      exact hrise j (by omega) ⟨hleft (by omega) (by omega) hread, hagain.1⟩
    intro k k' hk hk' hread hread'
    rcases Nat.lt_trichotomy k k' with hlt | heq | hlt
    · exact absurd hread' (hlater hlt hk' hread)
    · exact heq
    · exact absurd hread (hlater hlt hk hread')

end

end Paging
