import CivicConnect.GraphqlDns.Models
import CivicConnect.Library.KeyedMap

/-!
# The database

Two tables are keyed by record identifiers and a third one is a log. A
statement may fail, and a statement that wrote its row may still fail when its
answer is read back: what becomes of a statement is an input.
-/

namespace CivicConnect.GraphqlDns

structure Database where
  dnsRecords : KeyedMap String DNSRecord
  dnssecZones : KeyedMap String DNSSECZone
  provenance : List BlockchainProvenance

/-- What becomes of a write: done, refused, or done with an unreadable answer. -/
inductive WriteAnswer where
  | done
  | refused (message : String)
  | unread (message : String)
  deriving DecidableEq, Repr

def WriteAnswer.applied : WriteAnswer → Bool
  | refused _ => false
  | _ => true

/-- The answers of the database during one call: the error that its read
statement meets, if any, what becomes of its write, and the words that refuse
an identifier that is taken. -/
structure DatabaseAnswers where
  readError : Option String
  write : WriteAnswer
  taken : String
  deriving DecidableEq, Repr

namespace Database

def SameDns (db db' : Database) : Prop :=
  (∀ id, db.dnsRecords.get id = db'.dnsRecords.get id) ∧
    ∀ zone, db.dnssecZones.get zone = db'.dnssecZones.get zone

def SameRows (db db' : Database) : Prop := db.SameDns db' ∧ db.provenance = db'.provenance

theorem SameDns.refl (db : Database) : db.SameDns db := ⟨fun _ => rfl, fun _ => rfl⟩

/-- A write statement that leaves the database as `written` and answers with
`row`, or with the error of a missing answer. -/
def runWrite {α : Type} (db : Database) (write : WriteAnswer) (written : Database)
    (row : Option α) (missing : AppError) : Database × Except AppError α :=
  match write with
  | .done => (written, row.elim (.error missing) .ok)
  | .refused message => (db, .error (.database message))
  | .unread message => (written, .error (.database message))

theorem runWrite_fst {α : Type} (db : Database) (write : WriteAnswer) (written : Database)
    (row : Option α) (missing : AppError) :
    (db.runWrite write written row missing).1 = if write.applied then written else db := by
  cases write <;> rfl

def createRecord (db : Database) (answers : DatabaseAnswers) (record : DNSRecord) :
    Database × Except AppError DNSRecord :=
  match db.dnsRecords.get record.id with
  | some _ => (db, .error (.database answers.taken))
  | none =>
      db.runWrite answers.write { db with dnsRecords := db.dnsRecords.set record.id record }
        (some record) (.internal "Failed to create record")

def getRecord (db : Database) (answers : DatabaseAnswers) (id : String) :
    Except AppError DNSRecord :=
  match answers.readError with
  | some message => .error (.database message)
  | none => (db.dnsRecords.get id).elim (.error (.recordNotFound id)) .ok

/-- An update of a row that does not exist writes nothing. -/
def updateRecord (db : Database) (answers : DatabaseAnswers) (id : String) (record : DNSRecord) :
    Database × Except AppError DNSRecord :=
  db.runWrite answers.write { db with dnsRecords := db.dnsRecords.update id record }
    ((db.dnsRecords.get id).map fun _ => record) (.recordNotFound id)

def deleteRecord (db : Database) (answers : DatabaseAnswers) (id : String) :
    Database × Except AppError Bool :=
  db.runWrite answers.write { db with dnsRecords := db.dnsRecords.remove id } (some true)
    (.recordNotFound id)

def getDnssecZone (db : Database) (answers : DatabaseAnswers) (zone : String) :
    Except AppError DNSSECZone :=
  match answers.readError with
  | some message => .error (.database message)
  | none =>
      (db.dnssecZones.values.find? fun z => z.zone = zone).elim (.error (.zoneNotFound zone)) .ok

/-- Named an upsert, but it updates the row of the zone only when there is one. -/
def upsertDnssecZone (db : Database) (answers : DatabaseAnswers) (zone : DNSSECZone) :
    Database × Except AppError DNSSECZone :=
  db.runWrite answers.write { db with dnssecZones := db.dnssecZones.update zone.zone zone }
    ((db.dnssecZones.get zone.zone).map fun _ => zone) (.internal "Failed to upsert zone")

def storeProvenance (db : Database) (answers : DatabaseAnswers)
    (provenance : BlockchainProvenance) : Database × Except AppError BlockchainProvenance :=
  db.runWrite answers.write { db with provenance := db.provenance ++ [provenance] }
    (some provenance) (.internal "Failed to store provenance")

end Database

end CivicConnect.GraphqlDns
