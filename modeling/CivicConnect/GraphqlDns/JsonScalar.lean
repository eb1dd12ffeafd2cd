import CivicConnect.Json.Numbers
import Mathlib.Data.List.Nodup

/-!
# The JSON scalar

How a JSON payload becomes a GraphQL value, and how it is read back. An object
of the GraphQL library is an insertion-ordered map, which is filled member by
member.
-/

namespace CivicConnect.GraphqlDns

open Json

/-- `async_graphql::Value`. -/
inductive GraphQLValue where
  | null
  | number (n : JsonNumber)
  | string (s : String)
  | boolean (b : Bool)
  | binary (bytes : List UInt8)
  | enum (name : String)
  | list (items : List GraphQLValue)
  | object (members : List (String × GraphQLValue))

namespace GraphQLValue

section

variable {α : Type}

/-- A key that is there keeps its place. -/
def insertMember (members : List (String × α)) (member : String × α) : List (String × α) :=
  if member.1 ∈ members.map Prod.fst then
    members.map fun m => if m.1 = member.1 then member else m
  else members ++ [member]

def collect (members : List (String × α)) : List (String × α) := members.foldl insertMember []

theorem foldl_insertMember (members acc : List (String × α))
    (h : ((acc ++ members).map Prod.fst).Nodup) :
    members.foldl insertMember acc = acc ++ members := by
  induction members generalizing acc with
  | nil => simp
  | cons member members ih =>
      have hfresh : member.1 ∉ acc.map Prod.fst := by
        rw [List.map_append, List.nodup_append'] at h
        exact fun hmem => h.2.2 hmem (by simp)
      rw [List.foldl_cons, insertMember, if_neg hfresh, ih, List.append_assoc,
        List.singleton_append]
      simpa using h

theorem collect_eq_self {members : List (String × α)} (h : (members.map Prod.fst).Nodup) :
    collect members = members := by
  rw [collect, foldl_insertMember members [] h, List.nil_append]

end

mutual

/-- The conversion of GraphQL values to JSON, which keeps their structure. -/
def toJson : GraphQLValue → JsonValue
  | null => .null
  | number n => .number n
  | string s => .string s
  | boolean b => .bool b
  | binary bytes => .array (bytes.map fun byte => .number (.posInt byte.toUInt64))
  | enum name => .string name
  | list items => .array (itemsToJson items)
  | object members => .object (membersToJson members)

def itemsToJson : List GraphQLValue → List JsonValue
  | [] => []
  | v :: items => toJson v :: itemsToJson items

def membersToJson : List (String × GraphQLValue) → List (String × JsonValue)
  | [] => []
  | (key, v) :: members => (key, toJson v) :: membersToJson members

end

theorem itemsToJson_eq_map (items : List GraphQLValue) : itemsToJson items = items.map toJson :=
  eq_map_of_cons rfl (fun _ _ => rfl) items

theorem membersToJson_eq_map (members : List (String × GraphQLValue)) :
    membersToJson members = members.map fun m => (m.1, toJson m.2) :=
  eq_map_of_cons rfl (fun _ _ => rfl) members

end GraphQLValue

mutual

def jsonToGraphql : JsonValue → GraphQLValue
  | .null => .null
  | .bool b => .boolean b
  | .number n =>
      match n.asI64 with
      | some i => .number (.ofI64 i)
      | none =>
          match n.asF64 with
          | some f =>
              match JsonNumber.fromF64 f with
              | some num => .number num
              | none => .null
          | none => .null
  | .string s => .string s
  | .array arr => .list (itemsToGraphql arr)
  | .object obj => .object (GraphQLValue.collect (membersToGraphql obj))

def itemsToGraphql : List JsonValue → List GraphQLValue
  | [] => []
  | v :: items => jsonToGraphql v :: itemsToGraphql items

def membersToGraphql : List (String × JsonValue) → List (String × GraphQLValue)
  | [] => []
  | (key, v) :: members => (key, jsonToGraphql v) :: membersToGraphql members

end

theorem itemsToGraphql_eq_map (items : List JsonValue) :
    itemsToGraphql items = items.map jsonToGraphql :=
  eq_map_of_cons rfl (fun _ _ => rfl) items

theorem membersToGraphql_eq_map (members : List (String × JsonValue)) :
    membersToGraphql members = members.map fun m => (m.1, jsonToGraphql m.2) :=
  eq_map_of_cons rfl (fun _ _ => rfl) members

/-- The scalar, a wrapper of a payload. -/
structure JSON where
  value : JsonValue

inductive InputValueError where
  | expectedType (actual : GraphQLValue)

namespace JSON

def parse (value : GraphQLValue) : Except InputValueError JSON :=
  match value with
  | .object _ => .ok ⟨value.toJson⟩
  | _ => .error (.expectedType value)

/-- Serialising the payload first leaves it as it is. -/
def toValue (scalar : JSON) : GraphQLValue :=
  match scalar.value with
  | .object map => .object (GraphQLValue.collect (membersToGraphql map))
  | _ => .null

end JSON

/-- What becomes of a number: an integer that needs the sign bit turns into the
nearest double. -/
def narrowed : JsonNumber → JsonNumber
  | .posInt n => if n.toNat < 2 ^ 63 then .posInt n else .float (nearestF64 n.toNat)
  | .negInt i => .negInt i
  | .float q => .float q

theorem narrowed_eq_self_iff {n : JsonNumber} :
    narrowed n = n ↔ ∀ k : UInt64, n = .posInt k → k.toNat < 2 ^ 63 := by
  cases n with
  | posInt k => simp [narrowed]
  | negInt i => simp [narrowed]
  | float q => simp [narrowed]

theorem toJson_number {n : JsonNumber} (h : (JsonValue.number n).WellFormed) :
    (jsonToGraphql (.number n)).toJson = .number (narrowed n) := by
  rcases h with _ | _ | ⟨k⟩ | hneg | _
  · by_cases hsmall : k.toNat < 2 ^ 63
    · simp only [jsonToGraphql, JsonNumber.asI64, narrowed, if_pos hsmall,
        JsonNumber.ofI64_toInt64 hsmall, GraphQLValue.toJson]
    · simp only [jsonToGraphql, JsonNumber.asI64, JsonNumber.asF64, JsonNumber.fromF64, narrowed,
        if_neg hsmall, GraphQLValue.toJson]
  · simp only [jsonToGraphql, JsonNumber.asI64, JsonNumber.ofI64, narrowed, if_pos hneg,
      GraphQLValue.toJson]
  · rfl

/-- Through GraphQL and back, a payload keeps its structure and its numbers are
narrowed. -/
theorem toJson_jsonToGraphql {v : JsonValue} (h : v.WellFormed) :
    (jsonToGraphql v).toJson = v.mapNumbers narrowed := by
  induction h with
  | null => rfl
  | bool b => rfl
  | string s => rfl
  | posInt n => exact toJson_number (.posInt n)
  | negInt hneg => exact toJson_number (.negInt hneg)
  | float q => exact toJson_number (.float q)
  | array h ih =>
      rw [jsonToGraphql, GraphQLValue.toJson, JsonValue.mapNumbers, itemsToGraphql_eq_map,
        GraphQLValue.itemsToJson_eq_map, JsonValue.mapItems_eq_map, List.map_map]
      exact congrArg JsonValue.array (List.map_congr_left ih)
  | @object members hkeys h ih =>
      have hcollect : GraphQLValue.collect (membersToGraphql members) =
          membersToGraphql members := by
        apply GraphQLValue.collect_eq_self
        rw [membersToGraphql_eq_map, List.map_map]
        exact hkeys
      rw [jsonToGraphql, hcollect, GraphQLValue.toJson, JsonValue.mapNumbers,
        membersToGraphql_eq_map, GraphQLValue.membersToJson_eq_map, JsonValue.mapMembers_eq_map,
        List.map_map]
      refine congrArg JsonValue.object (List.map_congr_left fun m hmem => ?_)
      exact congrArg (Prod.mk m.1) (ih m hmem)

namespace JSON

variable {members : List (String × JsonValue)}

theorem parse_toValue (h : (JsonValue.object members).WellFormed) :
    parse (toValue ⟨.object members⟩) = .ok ⟨(JsonValue.object members).mapNumbers narrowed⟩ := by
  have hvalue : toValue ⟨.object members⟩ = jsonToGraphql (.object members) := by
    rw [jsonToGraphql, toValue]
  rw [← toJson_jsonToGraphql h, hvalue, jsonToGraphql, parse]

/-- An object survives the way through GraphQL exactly when every unsigned
integer in it, at any depth, is below `2 ^ 63`. -/
theorem parse_toValue_eq_iff (h : (JsonValue.object members).WellFormed) :
    parse (toValue ⟨.object members⟩) = .ok ⟨.object members⟩ ↔
      ∀ k : UInt64, (JsonValue.object members).Occurs (.posInt k) → k.toNat < 2 ^ 63 := by
  rw [parse_toValue h, Except.ok.injEq, JSON.mk.injEq, JsonValue.mapNumbers_eq_self_iff]
  simp only [narrowed_eq_self_iff]
  constructor
  · intro hnarrow k hk
    exact hnarrow (.posInt k) hk k rfl
  · rintro hsmall n hn k rfl
    exact hsmall k hn

/-- A zone edit with a nested object, an array and a negative number. -/
def zoneEdit : List (String × JsonValue) :=
  [("zone", .object [("serial", .number (.posInt 7)), ("offset", .number (.negInt (-3)))]),
    ("ports", .array [.number (.posInt 53), .null, .bool true]), ("name", .string "www")]

theorem wellFormed_zoneEdit : (JsonValue.object zoneEdit).WellFormed := by
  refine .object (by decide) ?_
  simp only [zoneEdit, List.forall_mem_cons, List.not_mem_nil, false_imp_iff, implies_true,
    and_true]
  refine ⟨.object (by decide) ?_, .array ?_, .string _⟩
  · simp only [List.forall_mem_cons, List.not_mem_nil, false_imp_iff, implies_true, and_true]
    exact ⟨.posInt 7, .negInt (by decide)⟩
  · simp only [List.forall_mem_cons, List.not_mem_nil, false_imp_iff, implies_true, and_true]
    exact ⟨.posInt 53, .null, .bool true⟩

theorem parse_toValue_eq_iff_zoneEdit :
    (JsonValue.object zoneEdit).WellFormed ∧
      (parse (toValue ⟨.object zoneEdit⟩) = .ok ⟨.object zoneEdit⟩ ↔
        ∀ k : UInt64, (JsonValue.object zoneEdit).Occurs (.posInt k) → k.toNat < 2 ^ 63) :=
  ⟨wellFormed_zoneEdit, parse_toValue_eq_iff wellFormed_zoneEdit⟩

/-- A payload that asks for the serial number `2 ^ 63`. -/
def largeSerial : List (String × JsonValue) := [("serial", .number (.posInt 9223372036854775808))]

/-- The serial number comes back as a float. -/
theorem largeSerial_not_kept :
    (JsonValue.object largeSerial).WellFormed ∧
      parse (toValue ⟨.object largeSerial⟩) ≠ .ok ⟨.object largeSerial⟩ := by
  have hwell : (JsonValue.object largeSerial).WellFormed := by
    refine .object (by decide) fun m hm => ?_
    obtain rfl := List.mem_singleton.mp hm
    exact .posInt _
  have hlarge : ¬ UInt64.toNat 9223372036854775808 < 2 ^ 63 := by decide
  refine ⟨hwell, ?_⟩
  rw [parse_toValue hwell, largeSerial, JsonValue.mapNumbers, JsonValue.mapMembers,
    JsonValue.mapNumbers, JsonValue.mapMembers, narrowed, if_neg hlarge]
  simp

end JSON

end CivicConnect.GraphqlDns
