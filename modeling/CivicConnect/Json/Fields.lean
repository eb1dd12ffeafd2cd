import CivicConnect.Json.Value
import CivicConnect.Library.KeyedMap

/-!
# Reading a record of strings

How `serde` reads a structure all of whose fields are required strings. The
members of an object come in any order, one of an unknown name is skipped, and
one that comes twice is refused. An array gives the fields by their positions.
-/

namespace CivicConnect.Json

inductive DecodeError where
  | invalidType (found : JsonValue)
  | invalidValue (found : JsonValue)
  | unknownVariant (text : String)
  | duplicateField (name : String)
  | missingField (name : String)
  | invalidLength (length : ℕ)
  | trailingItems

/-- The fields that have been read. -/
abbrev FieldTexts := KeyedMap String String

namespace FieldTexts

def visitMember (fields : List String) (seen : FieldTexts) (member : String × JsonValue) :
    Except DecodeError FieldTexts :=
  if member.1 ∈ fields then
    match seen.get member.1 with
    | some _ => .error (.duplicateField member.1)
    | none =>
        match member.2 with
        | .string s => .ok (seen.set member.1 s)
        | found => .error (.invalidType found)
  else .ok seen

def visitMembers (fields : List String) (seen : FieldTexts) :
    List (String × JsonValue) → Except DecodeError FieldTexts
  | [] => .ok seen
  | member :: members =>
      match visitMember fields seen member with
      | .error err => .error err
      | .ok seen => visitMembers fields seen members

def visitItems (seen : FieldTexts) : List String → List JsonValue → Except DecodeError FieldTexts
  | [], [] => .ok seen
  | [], _ :: _ => .error .trailingItems
  | _ :: _, [] => .error (.invalidLength seen.entries.length)
  | name :: names, .string s :: items => visitItems (seen.set name s) names items
  | _ :: _, found :: _ => .error (.invalidType found)

def visit (fields : List String) : JsonValue → Except DecodeError FieldTexts
  | .object members => visitMembers fields ∅ members
  | .array items => visitItems ∅ fields items
  | found => .error (.invalidType found)

def required (seen : FieldTexts) (name : String) : Except DecodeError String :=
  match seen.get name with
  | some s => .ok s
  | none => .error (.missingField name)

variable {fields : List String} {seen seen' : FieldTexts} {name s : String}

theorem required_ok_iff : seen.required name = .ok s ↔ seen.get name = some s := by
  rw [required]
  cases seen.get name <;> simp

theorem required_of_get_none (h : seen.get name = none) :
    seen.required name = .error (.missingField name) := by
  rw [required, h]

/-- One member sets the field of its name, if there is such a field. -/
theorem get_visitMember {member : String × JsonValue}
    (h : visitMember fields seen member = .ok seen') :
    seen'.get name = some s ↔
      seen.get name = some s ∨ name ∈ fields ∧ member = (name, .string s) := by
  obtain ⟨key, value⟩ := member
  rw [visitMember] at h
  split_ifs at h with hfield
  · split at h
    · cases h
    · next hfresh =>
        split at h
        · next _ t hvalue =>
            obtain rfl : value = .string t := hvalue
            obtain rfl := Except.ok.inj h
            rw [KeyedMap.get_set]
            split_ifs with hname
            · subst hname
              simp [hfresh, hfield]
            · simp [Ne.symm hname]
        · cases h
  · cases h
    constructor
    · exact .inl
    · rintro (hget | ⟨hname, heq⟩)
      · exact hget
      · obtain ⟨rfl, _⟩ := Prod.mk.inj heq
        exact absurd hname hfield

/-- A field has a text at the end just when it had one before or a member gives
it one. -/
theorem get_visitMembers {members : List (String × JsonValue)}
    (h : visitMembers fields seen members = .ok seen') :
    seen'.get name = some s ↔
      seen.get name = some s ∨ name ∈ fields ∧ (name, .string s) ∈ members := by
  induction members generalizing seen with
  | nil =>
      obtain rfl := Except.ok.inj h
      simp
  | cons member members ih =>
      rw [visitMembers] at h
      split at h
      · cases h
      · next next hstep =>
          rw [ih h, get_visitMember hstep, List.mem_cons, or_assoc, ← and_or_left,
            eq_comm (a := member)]

theorem visitMember_string {member : String × JsonValue} (hfresh : seen.get member.1 = none)
    (hstring : member.1 ∈ fields → ∃ t, member.2 = .string t) :
    ∃ seen', visitMember fields seen member = .ok seen' := by
  by_cases hfield : member.1 ∈ fields
  · obtain ⟨t, ht⟩ := hstring hfield
    exact ⟨seen.set member.1 t, by simp [visitMember, hfield, hfresh, ht]⟩
  · exact ⟨seen, if_neg hfield⟩

/-- Members with distinct names are read when the fields among them are strings. -/
theorem visitMembers_strings {members : List (String × JsonValue)}
    (hfresh : ∀ m ∈ members, seen.get m.1 = none) (hkeys : (members.map Prod.fst).Nodup)
    (hstrings : ∀ m ∈ members, m.1 ∈ fields → ∃ t, m.2 = .string t) :
    ∃ seen', visitMembers fields seen members = .ok seen' := by
  induction members generalizing seen with
  | nil => exact ⟨seen, rfl⟩
  | cons member members ih =>
      rw [List.forall_mem_cons] at hfresh hstrings
      rw [List.map_cons, List.nodup_cons] at hkeys
      obtain ⟨next, hnext⟩ := visitMember_string hfresh.1 hstrings.1
      have hnone : ∀ m ∈ members, next.get m.1 = none := by
        intro m hm
        rw [Option.eq_none_iff_forall_not_mem]
        rintro t ht
        rcases (get_visitMember hnext).mp ht with hget | ⟨_, heq⟩
        · rw [hfresh.2 m hm] at hget
          cases hget
        · have hsame : member.1 = m.1 := by rw [heq]
          exact hkeys.1 (hsame ▸ List.mem_map_of_mem hm)
      obtain ⟨seen', hseen'⟩ := ih hnone hkeys.2 hstrings.2
      exact ⟨seen', by simp only [visitMembers, hnext, hseen']⟩

end FieldTexts

end CivicConnect.Json
