import CivicConnect.Json.Value
import Mathlib.Algebra.Ring.Nat

/-!
# Numbers inside of JSON values

How `serde_json` converts numbers, which values it can hold, and what it means
to change every number of a value, at whatever depth it stands.
-/

namespace CivicConnect.Json

/-- The nearest double of a natural number, a tie going to the even one of its
neighbours. Up to 53 binary digits nothing is lost. -/
def nearestF64 (n : ℕ) : ℕ :=
  let unit := 2 ^ (n.log2 - 52)
  let low := n / unit
  let rest := n % unit
  if 2 * rest < unit ∨ 2 * rest = unit ∧ low % 2 = 0 then low * unit else (low + 1) * unit

example : nearestF64 (2 ^ 53 + 1) = 2 ^ 53 ∧ nearestF64 (2 ^ 64 - 1) = 2 ^ 64 := by decide

namespace JsonNumber

/-- `Number::as_i64`. -/
def asI64 : JsonNumber → Option Int64
  | posInt n => if n.toNat < 2 ^ 63 then some n.toInt64 else none
  | negInt i => some i
  | float _ => none

/-- `Number::as_f64`. -/
def asF64 : JsonNumber → Option ℚ
  | posInt n => some (nearestF64 n.toNat)
  | negInt i => some (if i < 0 then -(nearestF64 i.toInt.natAbs : ℚ) else nearestF64 i.toInt.natAbs)
  | float q => some q

/-- `Number::from`, for an `i64`. -/
def ofI64 (i : Int64) : JsonNumber := if i < 0 then negInt i else posInt i.toUInt64

/-- `Number::from_f64`, which refuses only what is not finite. -/
def fromF64 (q : ℚ) : Option JsonNumber := some (float q)

/-- An integer of a JSON text: what does not fit 64 bits is read as a float. -/
def ofNat (n : ℕ) : JsonNumber :=
  if n < 2 ^ 64 then posInt (UInt64.ofNat n) else float (nearestF64 n)

theorem toInt_toInt64 {n : UInt64} (h : n.toNat < 2 ^ 63) : n.toInt64.toInt = n.toNat := by
  rw [Int64.toInt, UInt64.toBitVec_toInt64, BitVec.toInt_eq_toNat_of_lt]
  · rfl
  · rw [UInt64.toNat_toBitVec]
    omega

theorem ofI64_toInt64 {n : UInt64} (h : n.toNat < 2 ^ 63) : ofI64 n.toInt64 = posInt n := by
  have hnonneg : ¬ n.toInt64 < 0 := by
    rw [Int64.lt_iff_toInt_lt, toInt_toInt64 h]
    simp
  rw [ofI64, if_neg hnonneg, UInt64.toUInt64_toInt64]

end JsonNumber

/-- A function that goes through a list item by item is a map. -/
theorem eq_map_of_cons {α β : Type} {f : List α → List β} {g : α → β} (hnil : f [] = [])
    (hcons : ∀ a l, f (a :: l) = g a :: f l) (l : List α) : f l = l.map g := by
  induction l with
  | nil => exact hnil
  | cons a l ih => rw [hcons, ih, List.map_cons]

namespace JsonValue

/-- Induction on values, with the hypothesis for every item and every member. -/
@[induction_eliminator]
theorem inductionOn {P : JsonValue → Prop} (null : P null) (bool : ∀ b, P (bool b))
    (number : ∀ n, P (number n)) (string : ∀ s, P (string s))
    (array : ∀ items, (∀ v ∈ items, P v) → P (array items))
    (object : ∀ members, (∀ m ∈ members, P m.2) → P (object members)) (v : JsonValue) : P v := by
  refine @JsonValue.rec P (fun items => ∀ v ∈ items, P v) (fun members => ∀ m ∈ members, P m.2)
    (fun m => P m.2) null bool number string array object ?_ ?_ ?_ ?_ ?_ v
  · exact fun _ h => nomatch h
  · exact fun _ _ hhead htail => List.forall_mem_cons.mpr ⟨hhead, htail⟩
  · exact fun _ h => nomatch h
  · exact fun _ _ hhead htail => List.forall_mem_cons.mpr ⟨hhead, htail⟩
  · exact fun _ _ h => h

/-- The values of the library: a negative integer is negative, and the keys of
an object are distinct. -/
inductive WellFormed : JsonValue → Prop
  | null : WellFormed null
  | bool (b : Bool) : WellFormed (bool b)
  | posInt (n : UInt64) : WellFormed (number (.posInt n))
  | negInt {i : Int64} (h : i < 0) : WellFormed (number (.negInt i))
  | float (q : ℚ) : WellFormed (number (.float q))
  | string (s : String) : WellFormed (string s)
  | array {items : List JsonValue} (h : ∀ v ∈ items, WellFormed v) : WellFormed (array items)
  | object {members : List (String × JsonValue)} (hkeys : (members.map Prod.fst).Nodup)
      (h : ∀ m ∈ members, WellFormed m.2) : WellFormed (object members)

/-- A number stands in a value, at some depth. -/
inductive Occurs (n : JsonNumber) : JsonValue → Prop
  | number : Occurs n (number n)
  | array {items : List JsonValue} {v : JsonValue} (hmem : v ∈ items) (h : Occurs n v) :
      Occurs n (array items)
  | object {members : List (String × JsonValue)} {m : String × JsonValue} (hmem : m ∈ members)
      (h : Occurs n m.2) : Occurs n (object members)

mutual

/-- The value with every number changed. -/
def mapNumbers (f : JsonNumber → JsonNumber) : JsonValue → JsonValue
  | null => null
  | bool b => bool b
  | number n => number (f n)
  | string s => string s
  | array items => array (mapItems f items)
  | object members => object (mapMembers f members)

def mapItems (f : JsonNumber → JsonNumber) : List JsonValue → List JsonValue
  | [] => []
  | v :: items => mapNumbers f v :: mapItems f items

def mapMembers (f : JsonNumber → JsonNumber) :
    List (String × JsonValue) → List (String × JsonValue)
  | [] => []
  | (key, v) :: members => (key, mapNumbers f v) :: mapMembers f members

end

section

variable {f : JsonNumber → JsonNumber} {n : JsonNumber}

theorem mapItems_eq_map (items : List JsonValue) :
    mapItems f items = items.map (mapNumbers f) :=
  eq_map_of_cons rfl (fun _ _ => rfl) items

theorem mapMembers_eq_map (members : List (String × JsonValue)) :
    mapMembers f members = members.map fun m => (m.1, mapNumbers f m.2) :=
  eq_map_of_cons rfl (fun _ _ => rfl) members

@[simp] theorem occurs_number {m : JsonNumber} : (number m).Occurs n ↔ n = m := by
  constructor
  · rintro ⟨⟩
    rfl
  · rintro rfl
    exact .number

@[simp] theorem occurs_array {items : List JsonValue} :
    (array items).Occurs n ↔ ∃ v ∈ items, v.Occurs n := by
  constructor
  · rintro (_ | ⟨hmem, h⟩)
    exact ⟨_, hmem, h⟩
  · rintro ⟨v, hmem, h⟩
    exact .array hmem h

@[simp] theorem occurs_object {members : List (String × JsonValue)} :
    (object members).Occurs n ↔ ∃ m ∈ members, m.2.Occurs n := by
  constructor
  · rintro (_ | _ | ⟨hmem, h⟩)
    exact ⟨_, hmem, h⟩
  · rintro ⟨m, hmem, h⟩
    exact .object hmem h

/-- A value stays as it is just when every number in it does. -/
theorem mapNumbers_eq_self_iff (v : JsonValue) :
    mapNumbers f v = v ↔ ∀ n, v.Occurs n → f n = n := by
  induction v with
  | null => exact ⟨fun _ n h => (nomatch h), fun _ => rfl⟩
  | bool b => exact ⟨fun _ n h => (nomatch h), fun _ => rfl⟩
  | string s => exact ⟨fun _ n h => (nomatch h), fun _ => rfl⟩
  | number m => simp [mapNumbers]
  | array items ih =>
      have hitems : items.map (mapNumbers f) = items ↔ ∀ v ∈ items, mapNumbers f v = v := by
        simpa using List.map_inj_left (l := items) (f := mapNumbers f) (g := id)
      rw [mapNumbers, mapItems_eq_map, array.injEq, hitems]
      simp only [occurs_array]
      constructor
      · rintro h n ⟨v, hmem, hn⟩
        exact (ih v hmem).mp (h v hmem) n hn
      · intro h v hmem
        exact (ih v hmem).mpr fun n hn => h n ⟨v, hmem, hn⟩
  | object members ih =>
      have hmembers : (members.map fun m => (m.1, mapNumbers f m.2)) = members ↔
          ∀ m ∈ members, mapNumbers f m.2 = m.2 := by
        simpa [Prod.ext_iff] using List.map_inj_left (l := members)
          (f := fun m => (m.1, mapNumbers f m.2)) (g := id)
      rw [mapNumbers, mapMembers_eq_map, object.injEq, hmembers]
      simp only [occurs_object]
      constructor
      · rintro h n ⟨m, hmem, hn⟩
        exact (ih m hmem).mp (h m hmem) n hn
      · intro h m hmem
        exact (ih m hmem).mpr fun n hn => h n ⟨m, hmem, hn⟩

end

end JsonValue

end CivicConnect.Json
