import CivicConnect.ConsentApi.Preferences

/-!
# The consent API

The queries on the consent table, which is keyed by identity, and the handler
that routes the requests. A query may fail; what it answers is an input.
-/

namespace CivicConnect.ConsentApi

open Json

abbrev Table := KeyedMap String ConsentRecord

structure Environment where
  isoNow : String
  databaseTime : String
  rowId : String
  selectError : Option String
  writeError : Option String
  schemaError : String
  deriving DecidableEq, Repr

/-- Functions of the platform: `decodeURIComponent`, which may throw, the
SHA-256 digest in hexadecimal, how the database reads a point in time, and how
a number is written. -/
structure Platform where
  decodeURIComponent : String → Option String
  sha256Hex : String → String
  datetime : JsonValue → Option String
  numberText : JsonNumber → String

instance : Inhabited Platform := ⟨⟨some, id, asString ∘ some, fun _ => ""⟩⟩

namespace Table

/-- The preferences in the row of their identity, which is made when there is
none; the database sets both times on every write. -/
def written (table : Table) (env : Environment) (prefs : AdmittedPreferences) (hash : String) :
    ConsentRecord :=
  match table.get prefs.identity with
  | some record =>
      { toAdmittedPreferences := { prefs with identity := record.identity }
        id := record.id
        createdAt := env.databaseTime
        updatedAt := env.databaseTime
        version := record.version + 1
        contentHash := some hash }
  | none =>
      { toAdmittedPreferences := prefs
        id := env.rowId
        createdAt := env.databaseTime
        updatedAt := env.databaseTime
        version := 1
        contentHash := some hash }

/-- The message of the `TypeError` for a value that has no text. -/
def noPrimitiveValue : String := "Cannot convert object to primitive value"

def storeConsent (platform : Platform) (table : Table) (env : Environment)
    (prefs : ConsentPreferences) : Table × Except String ConsentRecord :=
  match env.selectError with
  | some message => (table, .error message)
  | none =>
      match prefs.hashInput platform.numberText with
      | none => (table, .error noPrimitiveValue)
      | some hashInput =>
          match prefs.checkSchema platform.datetime with
          | none => (table, .error env.schemaError)
          | some admitted =>
              match env.writeError with
              | some message => (table, .error message)
              | none =>
                  let record := written table env admitted (platform.sha256Hex hashInput)
                  (table.set admitted.identity record, .ok record)

theorem storeConsent_ok {platform : Platform} {table table' : Table} {env : Environment}
    {prefs : ConsentPreferences} {record : ConsentRecord}
    (h : storeConsent platform table env prefs = (table', .ok record)) :
    ∃ p hashInput, prefs.checkSchema platform.datetime = some p ∧
      prefs.hashInput platform.numberText = some hashInput ∧
        record = written table env p (platform.sha256Hex hashInput) ∧
          table' = table.set p.identity record := by
  unfold storeConsent at h
  cases hselect : env.selectError with
  | some message => simp [hselect] at h
  | none =>
      cases hinput : prefs.hashInput platform.numberText with
      | none => simp [hselect, hinput] at h
      | some input =>
          cases hschema : prefs.checkSchema platform.datetime with
          | none => simp [hselect, hinput, hschema] at h
          | some p =>
              cases hwrite : env.writeError with
              | some message => simp [hselect, hinput, hschema, hwrite] at h
              | none =>
                  simp only [hselect, hinput, hschema, hwrite, Prod.mk.injEq,
                    Except.ok.injEq] at h
                  obtain ⟨rfl, rfl⟩ := h
                  exact ⟨p, input, rfl, rfl, rfl, rfl⟩

theorem storeConsent_error {platform : Platform} {table table' : Table} {env : Environment}
    {prefs : ConsentPreferences} {message : String}
    (h : storeConsent platform table env prefs = (table', .error message)) : table' = table := by
  rw [storeConsent] at h
  grind

def getConsent (table : Table) (env : Environment) (identity : String) :
    Except String (Option ConsentRecord) :=
  match env.selectError with
  | some message => .error message
  | none => .ok (table.get identity)

def defaultValue : Operation → String
  | .telemetry => "off"
  | .indexing => "on"
  | .webmentions => "on"
  | .dnsOperations => "off"

def permits (table : Table) (identity : String) (operation : Operation) : Bool :=
  match table.get identity with
  | none => defaultValue operation = "on"
  | some consent => consent.value operation = "on"

def checkConsentForOperation (table : Table) (env : Environment) (identity : String)
    (operation : Operation) : Except String Bool :=
  match env.selectError with
  | some message => .error message
  | none => .ok (table.permits identity operation)

def revokeConsent (table : Table) (env : Environment) (identity : String) :
    Table × Except String Unit :=
  match env.writeError with
  | some message => (table, .error message)
  | none => (table.remove identity, .ok ())

end Table

structure Request where
  method : String
  path : String
  body : Except String JsonValue
  environment : Environment

inductive Response where
  | preflight
  | failure (status : ℕ) (error : String)
  | stored (record : ConsentRecord)
  | found (record : ConsentRecord)
  | notFound (identity : String)
  | checked (identity : String) (operation : Operation) (allowed : Bool)
  | revoked (identity : String)
  | healthy
  deriving DecidableEq, Repr

def Response.status : Response → ℕ
  | preflight => 204
  | failure status _ => status
  | stored _ => 201
  | found _ => 200
  | notFound _ => 404
  | checked _ _ _ => 200
  | revoked _ => 200
  | healthy => 200

/-- The body of the branch of `handler` for `POST /consent`. -/
def postConsent (platform : Platform) (table : Table) (req : Request) : Table × Response :=
  match req.body with
  | .error message => (table, .failure 500 message)
  | .ok .null => (table, .failure 500 "Cannot read properties of null (reading 'identity')")
  | .ok body =>
      let prefs := ConsentPreferences.ofBody body
      if prefs.complete then
        match table.storeConsent platform req.environment
            (prefs.withDefaults req.environment.isoNow) with
        | (table, .ok record) => (table, .stored record)
        | (table, .error message) => (table, .failure 500 message)
      else (table, .failure 400 "Missing required fields: identity, telemetry, indexing")

/-- `GET /consent/:identity`. -/
def readConsent (platform : Platform) (table : Table) (req : Request) (encoded : String) :
    Response :=
  match platform.decodeURIComponent encoded with
  | none => .failure 500 "URI malformed"
  | some identity =>
      match table.getConsent req.environment identity with
      | .error message => .failure 500 message
      | .ok none => .notFound identity
      | .ok (some record) => .found record

/-- `POST /consent/:identity/check`. -/
def checkConsent (platform : Platform) (table : Table) (req : Request) (encoded : String) :
    Response :=
  match platform.decodeURIComponent encoded with
  | none => .failure 500 "URI malformed"
  | some identity =>
      match req.body with
      | .error message => .failure 500 message
      | .ok .null =>
          .failure 500
            "Cannot destructure property 'operation' of '(intermediate value)' as it is null."
      | .ok body =>
          match Operation.ofField (body.field "operation") with
          | none => .failure 400 "Invalid operation"
          | some operation =>
              match table.checkConsentForOperation req.environment identity operation with
              | .error message => .failure 500 message
              | .ok allowed => .checked identity operation allowed

/-- `DELETE /consent/:identity`. -/
def deleteConsent (platform : Platform) (table : Table) (req : Request) (encoded : String) :
    Table × Response :=
  match platform.decodeURIComponent encoded with
  | none => (table, .failure 500 "URI malformed")
  | some identity =>
      match table.revokeConsent req.environment identity with
      | (table, .error message) => (table, .failure 500 message)
      | (table, .ok ()) => (table, .revoked identity)

/-- `path.startsWith("/consent/")`. -/
def isConsentPath (path : String) : Bool := "/consent/".toList.isPrefixOf path.toList

/-- `path.substring(9)`. -/
def afterConsent (path : String) : String := String.ofList (path.toList.drop 9)

/-- The identity in a path of the form `/consent/:identity/check`. -/
def checkedIdentity (path : String) : Option String :=
  match path.toList.splitOn '/' with
  | [[], consent, identity, check] =>
      if consent = "consent".toList ∧ identity ≠ [] ∧ check = "check".toList then
        some (String.ofList identity)
      else none
  | _ => none

def handler (platform : Platform) (table : Table) (req : Request) : Table × Response :=
  if req.method = "OPTIONS" then (table, .preflight)
  else if req.path = "/consent" ∧ req.method = "POST" then postConsent platform table req
  else if isConsentPath req.path ∧ req.method = "GET" then
    (table, readConsent platform table req (afterConsent req.path))
  else if (checkedIdentity req.path).isSome ∧ req.method = "POST" then
    (table, checkConsent platform table req ((checkedIdentity req.path).getD ""))
  else if isConsentPath req.path ∧ req.method = "DELETE" then
    deleteConsent platform table req (afterConsent req.path)
  else if req.path = "/health" ∧ req.method = "GET" then (table, .healthy)
  else (table, .failure 404 "Not Found")

end CivicConnect.ConsentApi
