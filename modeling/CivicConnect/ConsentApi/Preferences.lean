import CivicConnect.Json.Value
import CivicConnect.Library.KeyedMap

/-!
# Consent preferences

The preferences as a request carries them, the defaults for optional fields,
and the rows of the consent table, which its schema checks.
-/

namespace CivicConnect.ConsentApi

open Json

inductive Operation where
  | telemetry
  | indexing
  | webmentions
  | dnsOperations
  deriving DecidableEq, Repr

def Operation.key : Operation → String
  | telemetry => "telemetry"
  | indexing => "indexing"
  | webmentions => "webmentions"
  | dnsOperations => "dnsOperations"

def Operation.ofField (field : Option JsonValue) : Option Operation :=
  match field with
  | some (.string s) =>
      if s = "telemetry" then some telemetry
      else if s = "indexing" then some indexing
      else if s = "webmentions" then some webmentions
      else if s = "dnsOperations" then some dnsOperations
      else none
  | _ => none

/-- Whether a field that may be undefined counts as true. -/
def truthy : Option JsonValue → Bool
  | none => false
  | some .null => false
  | some (.bool b) => b
  | some (.number (.posInt n)) => n ≠ 0
  | some (.number (.negInt n)) => n ≠ 0
  | some (.number (.float q)) => q ≠ 0
  | some (.string s) => s ≠ ""
  | some (.array _) => true
  | some (.object _) => true

/-- `field || default`. -/
def orDefault (field : Option JsonValue) (default : String) : Option JsonValue :=
  if truthy field then field else some (.string default)

mutual

/-- `String(value)`. An object that has a member `toString` of its own cannot be
converted, since no JSON value is a function. -/
def text (numberText : JsonNumber → String) : JsonValue → Option String
  | .null => some "null"
  | .bool b => some (toString b)
  | .number n => some (numberText n)
  | .string s => some s
  | .array items => (elementTexts numberText items).map ",".intercalate
  | .object members =>
      if (members.lookup "toString").isSome then none else some "[object Object]"

/-- The texts that `Array.prototype.join` puts together; `null` is left out. -/
def elementTexts (numberText : JsonNumber → String) : List JsonValue → Option (List String)
  | [] => some []
  | .null :: items => (elementTexts numberText items).map ("" :: ·)
  | item :: items => do
      let first ← text numberText item
      let rest ← elementTexts numberText items
      return first :: rest

end

def fieldText (numberText : JsonNumber → String) : Option JsonValue → Option String
  | none => some "undefined"
  | some value => text numberText value

structure ConsentPreferences where
  identity : Option JsonValue
  telemetry : Option JsonValue
  indexing : Option JsonValue
  webmentions : Option JsonValue
  dnsOperations : Option JsonValue
  manifestRef : Option JsonValue
  timestamp : Option JsonValue
  source : Option JsonValue

namespace ConsentPreferences

def ofBody (body : JsonValue) : ConsentPreferences where
  identity := body.field "identity"
  telemetry := body.field "telemetry"
  indexing := body.field "indexing"
  webmentions := body.field "webmentions"
  dnsOperations := body.field "dnsOperations"
  manifestRef := body.field "manifestRef"
  timestamp := body.field "timestamp"
  source := body.field "source"

def complete (prefs : ConsentPreferences) : Bool :=
  truthy prefs.identity && truthy prefs.telemetry && truthy prefs.indexing

def withDefaults (prefs : ConsentPreferences) (isoNow : String) : ConsentPreferences :=
  { prefs with
    webmentions := orDefault prefs.webmentions "on"
    dnsOperations := orDefault prefs.dnsOperations "off"
    timestamp := orDefault prefs.timestamp isoNow }

/-- The string whose digest is the content hash. -/
def hashInput (prefs : ConsentPreferences) (numberText : JsonNumber → String) :
    Option String := do
  let identity ← fieldText numberText prefs.identity
  let telemetry ← fieldText numberText prefs.telemetry
  let indexing ← fieldText numberText prefs.indexing
  let webmentions ← fieldText numberText prefs.webmentions
  let dnsOperations ← fieldText numberText prefs.dnsOperations
  let timestamp ← fieldText numberText prefs.timestamp
  return identity ++ ":" ++ telemetry ++ ":" ++ indexing ++ ":" ++ webmentions ++ ":" ++
    dnsOperations ++ ":" ++ timestamp

end ConsentPreferences

/-- Preferences that the schema of the table admits. -/
structure AdmittedPreferences where
  identity : String
  telemetry : String
  indexing : String
  webmentions : String
  dnsOperations : String
  dnsOperations_mem : dnsOperations = "on" ∨ dnsOperations = "off"
  manifestRef : Option String
  timestamp : String
  source : String
  deriving DecidableEq, Repr

def AdmittedPreferences.value (p : AdmittedPreferences) : Operation → String
  | .telemetry => p.telemetry
  | .indexing => p.indexing
  | .webmentions => p.webmentions
  | .dnsOperations => p.dnsOperations

structure ConsentRecord extends AdmittedPreferences where
  id : String
  createdAt : String
  updatedAt : String
  version : ℕ
  contentHash : Option String
  deriving DecidableEq, Repr

def asString : Option JsonValue → Option String
  | some (.string s) => some s
  | _ => none

def asOptionString : Option JsonValue → Option (Option String)
  | none => some none
  | some (.string s) => some (some s)
  | some _ => none

/-- The types and the assertion of the schema. How a value is read as a point
in time is up to the database. -/
def ConsentPreferences.checkSchema (prefs : ConsentPreferences)
    (datetime : JsonValue → Option String) : Option AdmittedPreferences := do
  let identity ← asString prefs.identity
  let telemetry ← asString prefs.telemetry
  let indexing ← asString prefs.indexing
  let webmentions ← asString prefs.webmentions
  let dnsOperations ← asString prefs.dnsOperations
  let manifestRef ← asOptionString prefs.manifestRef
  let timestamp ← prefs.timestamp.bind datetime
  let source ← asString prefs.source
  if h : dnsOperations = "on" ∨ dnsOperations = "off" then
    some
      { identity := identity
        telemetry := telemetry
        indexing := indexing
        webmentions := webmentions
        dnsOperations := dnsOperations
        dnsOperations_mem := h
        manifestRef := manifestRef
        timestamp := timestamp
        source := source }
  else none

theorem asString_eq_some_iff {field : Option JsonValue} {s : String} :
    asString field = some s ↔ field = some (.string s) := by
  cases field with
  | none => simp [asString]
  | some v => cases v <;> simp [asString]

end CivicConnect.ConsentApi
