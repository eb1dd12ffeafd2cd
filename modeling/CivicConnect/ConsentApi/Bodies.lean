import CivicConnect.ConsentApi.Handler
import CivicConnect.Json.Numbers

/-!
# The bodies of the answers

What `JSON.stringify` makes of a row of the table, whose fields the database
returns in alphabetical order, and of the other answers of the handler.
-/

namespace CivicConnect.ConsentApi

open Json

/-- A field that may be undefined, which leaves no trace. -/
def optionalField (name : String) (value : Option String) : List (String × JsonValue) :=
  value.toList.map fun s => (name, .string s)

def ConsentRecord.members (row : ConsentRecord) : List (String × JsonValue) :=
  optionalField "contentHash" row.contentHash ++
    [("createdAt", .string row.createdAt), ("dnsOperations", .string row.dnsOperations),
      ("id", .string row.id), ("identity", .string row.identity),
      ("indexing", .string row.indexing)] ++
    optionalField "manifestRef" row.manifestRef ++
    [("source", .string row.source), ("telemetry", .string row.telemetry),
      ("timestamp", .string row.timestamp), ("updatedAt", .string row.updatedAt),
      ("version", .number (.ofNat row.version)), ("webmentions", .string row.webmentions)]

def ConsentRecord.toJson (row : ConsentRecord) : JsonValue := .object row.members

/-- The body of a response; a preflight has none. -/
def Response.body : Response → Option JsonValue
  | preflight => none
  | failure _ error => some (.object [("error", .string error)])
  | stored record => some record.toJson
  | found record => some record.toJson
  | notFound identity =>
      some (.object [("error", .string "Consent not found"), ("identity", .string identity)])
  | checked identity operation allowed =>
      some (.object [("identity", .string identity), ("operation", .string operation.key),
        ("allowed", .bool allowed)])
  | revoked identity =>
      some (.object [("message", .string "Consent revoked"), ("identity", .string identity)])
  | healthy => some (.object [("status", .string "OK")])

namespace ConsentRecord

variable (row : ConsentRecord)

theorem keys_members :
    row.members.map Prod.fst =
      (row.contentHash.toList.map fun _ => "contentHash") ++
        ["createdAt", "dnsOperations", "id", "identity", "indexing"] ++
        (row.manifestRef.toList.map fun _ => "manifestRef") ++
        ["source", "telemetry", "timestamp", "updatedAt", "version", "webmentions"] := by
  simp [members, optionalField, Function.comp_def]

theorem nodup_keys : (row.members.map Prod.fst).Nodup := by
  rw [keys_members]
  cases row.contentHash <;> cases row.manifestRef <;> simp

/-- Every field of a row but its version is a string. -/
theorem members_string : ∀ m ∈ row.members, m.1 ≠ "version" → ∃ t, m.2 = .string t := by
  simp only [members, optionalField, List.forall_mem_append, List.forall_mem_map,
    List.forall_mem_cons]
  simp

end ConsentRecord

end CivicConnect.ConsentApi
