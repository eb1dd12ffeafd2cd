import Mathlib.Data.List.AList

/-!
# Keyed maps

A finite map from keys to values, as an association list without repeated
keys. `AList` carries a value type that depends on the key; the operations
below fix it, so that a lookup has the plain type `Option V`.
-/

universe u v

/-- A finite map; the absence of repeated keys is a field of `AList`. -/
abbrev KeyedMap (K : Type u) (V : Type v) := AList fun _ : K => V

namespace KeyedMap

variable {K : Type u} {V : Type v} [DecidableEq K]

def get (m : KeyedMap K V) (k : K) : Option V := AList.lookup k m

def set (m : KeyedMap K V) (k : K) (v : V) : KeyedMap K V := AList.insert k v m

/-- Replace the value of a key that is bound; an absent key stays absent. -/
def update (m : KeyedMap K V) (k : K) (v : V) : KeyedMap K V := AList.replace k v m

def remove (m : KeyedMap K V) (k : K) : KeyedMap K V := AList.erase k m

omit [DecidableEq K] in
def retain (m : KeyedMap K V) (p : K → V → Bool) : KeyedMap K V where
  entries := m.entries.filter fun e => p e.1 e.2
  nodupKeys := m.nodupKeys.sublist List.filter_sublist

def values (m : KeyedMap K V) : List V := m.entries.map Sigma.snd

omit [DecidableEq K] in
/-- The stored values that meet a condition. -/
def valuesWhere (m : KeyedMap K V) (p : V → Bool) : List V :=
  (m.entries.filter fun e => p e.2).map Sigma.snd

omit [DecidableEq K] in
/-- The number of bindings that meet a condition. -/
def countRows (m : KeyedMap K V) (p : K → V → Bool) : ℕ :=
  m.entries.countP fun e => p e.1 e.2

@[simp] theorem get_empty (k : K) : (∅ : KeyedMap K V).get k = none := rfl

@[simp] theorem get_set_self (m : KeyedMap K V) (k : K) (v : V) :
    (m.set k v).get k = some v := AList.lookup_insert m

theorem get_set_ne (m : KeyedMap K V) {k k' : K} (v : V) (h : k' ≠ k) :
    (m.set k v).get k' = m.get k' := AList.lookup_insert_ne h

theorem get_set (m : KeyedMap K V) (k k' : K) (v : V) :
    (m.set k v).get k' = if k' = k then some v else m.get k' := by
  split_ifs with h
  · rw [h, get_set_self]
  · exact get_set_ne m v h

theorem set_set (m : KeyedMap K V) (k : K) (v w : V) : (m.set k v).set k w = m.set k w :=
  AList.insert_insert m

theorem get_eq_set_iff (m : KeyedMap K V) (k : K) (v : V) :
    (∀ k', m.get k' = (m.set k v).get k') ↔ m.get k = some v := by
  constructor
  · intro h
    rw [h k, get_set_self]
  · intro h k'
    rw [get_set]
    split
    · next heq => rw [heq, h]
    · rfl

@[simp] theorem get_remove_self (m : KeyedMap K V) (k : K) : (m.remove k).get k = none :=
  AList.lookup_erase k m

theorem get_remove_ne (m : KeyedMap K V) {k k' : K} (h : k' ≠ k) :
    (m.remove k).get k' = m.get k' := AList.lookup_erase_ne h

theorem mem_entries_iff (m : KeyedMap K V) (k : K) (v : V) :
    (⟨k, v⟩ : Σ _ : K, V) ∈ m.entries ↔ m.get k = some v :=
  (List.mem_dlookup_iff m.nodupKeys).symm

theorem get_retain (m : KeyedMap K V) (p : K → V → Bool) (k : K) :
    (m.retain p).get k = (m.get k).filter (p k) := by
  apply Option.ext
  intro v
  have hkeep : (⟨k, v⟩ : Σ _ : K, V) ∈ (m.retain p).entries ↔
      (⟨k, v⟩ : Σ _ : K, V) ∈ m.entries ∧ p k v = true := List.mem_filter
  rw [mem_entries_iff, mem_entries_iff] at hkeep
  rw [hkeep, Option.filter_eq_some_iff]

theorem mem_valuesWhere (m : KeyedMap K V) (p : V → Bool) (v : V) :
    v ∈ m.valuesWhere p ↔ (∃ k, m.get k = some v) ∧ p v = true := by
  rw [valuesWhere]
  constructor
  · intro h
    obtain ⟨⟨k, w⟩, he, rfl⟩ := List.mem_map.mp h
    obtain ⟨hmem, hp⟩ := List.mem_filter.mp he
    exact ⟨⟨k, (m.mem_entries_iff k w).mp hmem⟩, hp⟩
  · rintro ⟨⟨k, hget⟩, hp⟩
    exact List.mem_map.mpr
      ⟨⟨k, v⟩, List.mem_filter.mpr ⟨(m.mem_entries_iff k v).mpr hget, hp⟩, rfl⟩

theorem forall_mem_entries (m : KeyedMap K V) (P : K → V → Prop) :
    (∀ e ∈ m.entries, P e.1 e.2) ↔ ∀ k v, m.get k = some v → P k v := by
  constructor
  · intro h k v hget
    exact h ⟨k, v⟩ ((m.mem_entries_iff k v).mpr hget)
  · rintro h ⟨k, v⟩ he
    exact h k v ((m.mem_entries_iff k v).mp he)

theorem countRows_eq_zero_iff (m : KeyedMap K V) (p : K → V → Bool) :
    m.countRows p = 0 ↔ ∀ k v, m.get k = some v → p k v = false := by
  simp only [countRows, List.countP_eq_zero, Bool.not_eq_true]
  exact m.forall_mem_entries fun k v => p k v = false

theorem countRows_congr (m : KeyedMap K V) {p q : K → V → Bool}
    (h : ∀ k v, m.get k = some v → p k v = q k v) : m.countRows p = m.countRows q := by
  apply List.countP_congr
  rintro ⟨k, v⟩ he
  rw [h k v ((m.mem_entries_iff k v).mp he)]

omit [DecidableEq K] in
theorem countRows_all (m : KeyedMap K V) :
    m.countRows (fun _ _ => true) = m.entries.length :=
  congrFun List.countP_true m.entries

theorem countRows_eq_all_iff (m : KeyedMap K V) (p : K → V → Bool) :
    m.countRows p = m.countRows (fun _ _ => true) ↔
      ∀ k v, m.get k = some v → p k v = true := by
  rw [countRows_all, countRows, List.countP_eq_length]
  exact m.forall_mem_entries fun k v => p k v = true

/-- Where every binding that is counted on one side has one that is counted on
the other, the count is at most the other. -/
theorem countRows_mono {m m' : KeyedMap K V} {p q : K → V → Bool}
    (h : ∀ k v, m.get k = some v → p k v = true → ∃ w, m'.get k = some w ∧ q k w = true) :
    m.countRows p ≤ m'.countRows q := by
  have hkeys : ((m.entries.filter fun e => p e.1 e.2).map Sigma.fst).Nodup :=
    m.nodupKeys.sublist List.filter_sublist
  have hsubset : (m.entries.filter fun e => p e.1 e.2).map Sigma.fst ⊆
      (m'.entries.filter fun e => q e.1 e.2).map Sigma.fst := by
    intro k hk
    obtain ⟨⟨k, v⟩, he, rfl⟩ := List.mem_map.mp hk
    obtain ⟨hmem, hp⟩ := List.mem_filter.mp he
    obtain ⟨w, hget, hq⟩ := h k v ((m.mem_entries_iff k v).mp hmem) hp
    exact List.mem_map.mpr
      ⟨⟨k, w⟩, List.mem_filter.mpr ⟨(m'.mem_entries_iff k w).mpr hget, hq⟩, rfl⟩
  have hlength := (List.subperm_of_subset hkeys hsubset).length_le
  simpa only [countRows, List.countP_eq_length_filter, List.length_map] using hlength

/-- Where no two keys hold values that meet the condition, there is at most one
such value. -/
theorem length_valuesWhere_le_one (m : KeyedMap K V) (p : V → Bool)
    (h : ∀ k k' v v', m.get k = some v → m.get k' = some v' → p v = true → p v' = true →
      k = k') : (m.valuesWhere p).length ≤ 1 := by
  have hnodup : (m.entries.filter fun e => p e.2).Nodup := m.nodupKeys.nodup.filter _
  have hsame : ∀ e ∈ m.entries.filter fun e => p e.2,
      ∀ e' ∈ m.entries.filter fun e => p e.2, e = e' := by
    rintro ⟨k, v⟩ he ⟨k', v'⟩ he'
    obtain ⟨hmem, hp⟩ := List.mem_filter.mp he
    obtain ⟨hmem', hp'⟩ := List.mem_filter.mp he'
    have hget := (m.mem_entries_iff k v).mp hmem
    have hget' := (m.mem_entries_iff k' v').mp hmem'
    obtain rfl := h k k' v v' hget hget' hp hp'
    rw [Option.some.inj (hget.symm.trans hget')]
  rw [valuesWhere, List.length_map]
  generalize m.entries.filter (fun e => p e.2) = l at hnodup hsame
  match l, hnodup, hsame with
  | [], _, _ => exact Nat.zero_le 1
  | [_], _, _ => exact Nat.le_refl 1
  | e :: e' :: _, hnodup, hsame =>
      have heq : e = e' := hsame e (by simp) e' (by simp)
      exact absurd (heq ▸ List.mem_cons_self) (List.nodup_cons.mp hnodup).1

theorem valuesWhere_eq_singleton_iff (m : KeyedMap K V) (p : V → Bool) (v : V)
    (h : (m.valuesWhere p).length ≤ 1) :
    m.valuesWhere p = [v] ↔ (∃ k, m.get k = some v) ∧ p v = true := by
  rw [← mem_valuesWhere]
  generalize m.valuesWhere p = l at h ⊢
  match l, h with
  | [], _ => simp
  | [w], _ => simp [eq_comm]

theorem dlookup_kreplace (l : List (Σ _ : K, V)) (k k' : K) (v : V) :
    List.dlookup k' (List.kreplace k v l) =
      if k' = k then (List.dlookup k l).map fun _ => v else List.dlookup k' l := by
  induction l with
  | nil => simp [List.kreplace]
  | cons e l ih =>
      obtain ⟨i, w⟩ := e
      unfold List.kreplace at ih ⊢
      by_cases hi : k = i
      · subst hi
        rw [List.lookmap_cons_some _ _ (dif_pos rfl)]
        by_cases hk : k' = k
        · subst hk
          simp
        · simp [hk]
      · rw [List.lookmap_cons_none _ _ (dif_neg hi), List.dlookup_cons_ne l _ hi]
        by_cases hk : k' = i
        · subst hk
          simp [Ne.symm hi]
        · rw [List.dlookup_cons_ne _ _ hk, List.dlookup_cons_ne _ _ hk]
          exact ih

theorem get_update (m : KeyedMap K V) (k k' : K) (v : V) :
    (m.update k v).get k' = if k' = k then (m.get k).map fun _ => v else m.get k' :=
  dlookup_kreplace m.entries k k' v

theorem get_update_self {m : KeyedMap K V} {k : K} {w : V} (v : V) (h : m.get k = some w) :
    (m.update k v).get k = some v := by
  rw [get_update, if_pos rfl, h, Option.map_some]

/-- An update is without effect only where the value is stored already or the
key is absent. -/
theorem get_eq_update_iff (m : KeyedMap K V) (k : K) (v : V) :
    (∀ k', m.get k' = (m.update k v).get k') ↔ ∀ w, m.get k = some w → w = v := by
  constructor
  · intro h w hw
    have hk := h k
    rw [get_update_self v hw, hw] at hk
    exact Option.some.inj hk
  · intro h k'
    rw [get_update]
    split
    · next heq =>
        cases hw : m.get k with
        | none => rw [heq, hw, Option.map_none]
        | some w => rw [heq, hw, h w hw, Option.map_some]
    · rfl

theorem get_eq_remove_iff (m : KeyedMap K V) (k : K) :
    (∀ k', m.get k' = (m.remove k).get k') ↔ m.get k = none := by
  constructor
  · intro h
    rw [h k, get_remove_self]
  · intro h k'
    by_cases heq : k' = k
    · rw [heq, h, get_remove_self]
    · rw [get_remove_ne m heq]

end KeyedMap
