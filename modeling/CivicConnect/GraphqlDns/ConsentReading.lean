import CivicConnect.ConsentApi.Bodies
import CivicConnect.ConsentApi.OptOut
import CivicConnect.GraphqlDns.Consent
import CivicConnect.Json.Fields

/-!
# Reading a consent record

The client fetches the record of an identity from the consent API. Its own
record type names a field for DNS operations that no row of the API has.
-/

namespace CivicConnect.GraphqlDns

open Json

structure ConsentRecord where
  identity : String
  telemetry : String
  indexing : String
  webmentions : String
  dnsOperations : String
  timestamp : String
  source : String
  deriving DecidableEq, Repr

namespace ConsentRecord

/-- The names that `serde` derives from the fields. -/
def fields : List String :=
  ["identity", "telemetry", "indexing", "webmentions", "dns_operations", "timestamp", "source"]

def ofFields (seen : FieldTexts) : Except DecodeError ConsentRecord := do
  let identity ← seen.required "identity"
  let telemetry ← seen.required "telemetry"
  let indexing ← seen.required "indexing"
  let webmentions ← seen.required "webmentions"
  let dnsOperations ← seen.required "dns_operations"
  let timestamp ← seen.required "timestamp"
  let source ← seen.required "source"
  return ⟨identity, telemetry, indexing, webmentions, dnsOperations, timestamp, source⟩

def deserialize (body : JsonValue) : Except DecodeError ConsentRecord := do
  let seen ← FieldTexts.visit fields body
  ofFields seen

/-- The record says what the row says. -/
structure Matches (record : ConsentRecord) (row : ConsentApi.ConsentRecord) : Prop where
  identity : record.identity = row.identity
  telemetry : record.telemetry = row.telemetry
  indexing : record.indexing = row.indexing
  webmentions : record.webmentions = row.webmentions
  dnsOperations : record.dnsOperations = row.dnsOperations
  timestamp : record.timestamp = row.timestamp
  source : record.source = row.source

end ConsentRecord

inductive ReadError where
  | transport (message : String)
  | decode (err : DecodeError)
  | api (status : ℕ)

namespace ConsentClient

def consentUrl (client : ConsentClient) (identity : String) : String :=
  client.baseUrl ++ "/consent/" ++ client.urlencoding.encode identity

def getConsent (client : ConsentClient) (api : String → ConsentAnswer) (identity : String) :
    Except ReadError (Option ConsentRecord) :=
  match api (client.consentUrl identity) with
  | .unreachable message => .error (.transport message)
  | .response status body =>
      if 200 ≤ status ∧ status < 300 then
        match body with
        | .error message => .error (.transport message)
        | .ok json =>
            match ConsentRecord.deserialize json with
            | .error err => .error (.decode err)
            | .ok record => .ok (some record)
      else if status = 404 then .ok none
      else .error (.api status)

end ConsentClient

/-- A response of the consent API as the client sees it. -/
def answerOf (response : ConsentApi.Response) : ConsentAnswer :=
  .response response.status <|
    match response.body with
    | some body => .ok body
    | none => .error "EOF while parsing a value"

variable (row : ConsentApi.ConsentRecord)

/-- A row misses the field for DNS operations, whatever it holds. -/
theorem deserialize_toJson :
    ConsentRecord.deserialize row.toJson = .error (.missingField "dns_operations") := by
  have hstrings : ∀ m ∈ row.members, m.1 ∈ ConsentRecord.fields → ∃ t, m.2 = .string t := by
    intro m hm hfield
    refine row.members_string m hm ?_
    rintro hversion
    rw [hversion] at hfield
    exact absurd hfield (by decide)
  obtain ⟨seen, hseen⟩ :=
    FieldTexts.visitMembers_strings (fun _ _ => KeyedMap.get_empty _) row.nodup_keys hstrings
  have hread : ∀ {name s : String}, name ∈ ConsentRecord.fields →
      (name, .string s) ∈ row.members → seen.required name = .ok s := by
    intro name s hfield hmem
    exact FieldTexts.required_ok_iff.mpr
      ((FieldTexts.get_visitMembers hseen).mpr (.inr ⟨hfield, hmem⟩))
  have hidentity : seen.required "identity" = .ok row.identity :=
    hread (by decide) (by simp [ConsentApi.ConsentRecord.members])
  have htelemetry : seen.required "telemetry" = .ok row.telemetry :=
    hread (by decide) (by simp [ConsentApi.ConsentRecord.members])
  have hindexing : seen.required "indexing" = .ok row.indexing :=
    hread (by decide) (by simp [ConsentApi.ConsentRecord.members])
  have hwebmentions : seen.required "webmentions" = .ok row.webmentions :=
    hread (by decide) (by simp [ConsentApi.ConsentRecord.members])
  have hdns : seen.required "dns_operations" = .error (.missingField "dns_operations") := by
    apply FieldTexts.required_of_get_none
    rw [Option.eq_none_iff_forall_not_mem]
    rintro s hs
    rcases (FieldTexts.get_visitMembers hseen).mp hs with hempty | ⟨_, hmem⟩
    · cases hempty
    · have hkey : "dns_operations" ∈ row.members.map Prod.fst := List.mem_map_of_mem hmem
      rw [row.keys_members] at hkey
      simp at hkey
  have hvisit : FieldTexts.visit ConsentRecord.fields row.toJson = .ok seen := hseen
  rw [ConsentRecord.deserialize, hvisit]
  simp only [bind, Except.bind, ConsentRecord.ofFields, hidentity, htelemetry, hindexing,
    hwebmentions, hdns]

namespace ConsentClient

variable {client : ConsentClient} {api : String → ConsentAnswer} {identity : String}
  {platform : ConsentApi.Platform} {table : ConsentApi.Table} {req : ConsentApi.Request}

theorem getConsent_found (hanswer : api (client.consentUrl identity) = answerOf (.found row)) :
    client.getConsent api identity = .error (.decode (.missingField "dns_operations")) := by
  have hbody : answerOf (.found row) = .response 200 (.ok row.toJson) := rfl
  rw [getConsent, hanswer, hbody]
  simp only [deserialize_toJson]
  rfl

variable {row}

/-- No row that the consent API answers with is read by the client. -/
theorem found_not_read (hfound : (ConsentApi.handler platform table req).2 = .found row)
    (hanswer : api (client.consentUrl identity) =
      answerOf (ConsentApi.handler platform table req).2) :
    ¬ ∃ record, client.getConsent api identity = .ok (some record) ∧ record.Matches row := by
  rintro ⟨record, hread, _⟩
  rw [hfound] at hanswer
  rw [getConsent_found row hanswer] at hread
  cases hread

/-- The request that the client's call amounts to. -/
def sampleFetch : ConsentApi.Request :=
  ⟨"GET", "/consent/" ++ UrlEncoding.percent.encode "me", .error "no body",
    ConsentApi.sampleEnvironment⟩

/-- The table after one stored row. -/
def sampleTable : ConsentApi.Table :=
  (ConsentApi.handler ConsentApi.samplePlatform ∅ (ConsentApi.samplePost "on" (some "off"))).1

def sampleRow : ConsentApi.ConsentRecord where
  identity := "me"
  telemetry := "off"
  indexing := "on"
  webmentions := "off"
  dnsOperations := "off"
  dnsOperations_mem := .inr rfl
  manifestRef := none
  timestamp := "2026-01-01T00:00:00.000Z"
  source := "wordpress://example.com"
  id := "consent:1"
  createdAt := "2026-01-01T00:00:00Z"
  updatedAt := "2026-01-01T00:00:00Z"
  version := 1
  contentHash := some "me:off:on:off:off:2026-01-01T00:00:00.000Z"

theorem handler_sampleFetch :
    (ConsentApi.handler ConsentApi.samplePlatform sampleTable sampleFetch).2 =
      .found sampleRow := by
  decide +kernel

def sampleClient : ConsentClient := ⟨"http://localhost:8082", .percent⟩

theorem found_not_read_sample :
    (ConsentApi.handler ConsentApi.samplePlatform sampleTable sampleFetch).2 = .found sampleRow ∧
      ¬ ∃ record, sampleClient.getConsent
          (fun _ => answerOf
            (ConsentApi.handler ConsentApi.samplePlatform sampleTable sampleFetch).2) "me" =
        .ok (some record) ∧ record.Matches sampleRow :=
  ⟨handler_sampleFetch, found_not_read handler_sampleFetch rfl⟩

/-- The client does not read the row that was just stored. -/
theorem stored_row_not_read :
    ¬ ∀ (platform : ConsentApi.Platform) (table : ConsentApi.Table) (req : ConsentApi.Request)
        (row : ConsentApi.ConsentRecord) (client : ConsentClient) (api : String → ConsentAnswer)
        (identity : String),
      req.method = "GET" → req.path = "/consent/" ++ client.urlencoding.encode identity →
      (ConsentApi.handler platform table req).2 = .found row →
      api (client.consentUrl identity) =
          answerOf (ConsentApi.handler platform table req).2 →
        ∃ record, client.getConsent api identity = .ok (some record) ∧ record.Matches row := by
  intro hreads
  obtain ⟨record, hread, _⟩ := hreads ConsentApi.samplePlatform sampleTable sampleFetch sampleRow
    sampleClient (fun _ => answerOf (.found sampleRow)) "me" rfl rfl handler_sampleFetch
    (by rw [handler_sampleFetch])
  rw [getConsent_found sampleRow rfl] at hread
  cases hread

end ConsentClient

end CivicConnect.GraphqlDns
