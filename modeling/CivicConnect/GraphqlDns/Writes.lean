import CivicConnect.GraphqlDns.Resolvers

/-!
# What the resolvers write

For each resolver, when exactly its call changes a row. The conditions are read
from the checks that stand before the write, and from the rows that are stored.
-/

namespace CivicConnect.GraphqlDns

/-- The record has all that an update with the input would give it. -/
def DNSRecord.Carries (r : DNSRecord) (input : DNSRecordInput) (now : Timestamp) : Prop :=
  r.name = input.name ∧ r.recordType = input.recordType ∧ r.ttl = input.ttl ∧
    r.value = input.value ∧ r.updatedAt = now ∧ ∀ dnssec ∈ input.dnssec, r.dnssec = dnssec

/-- The zone has the keys of the environment, made for the zone of that name. -/
def DNSSECZone.Carries (z : DNSSECZone) (hashing : Hashing) (env : Environment)
    (zone : String) (enabled : Bool) : Prop :=
  z.zone = zone ∧ z.enabled = enabled ∧ z.ksk = some env.ksk ∧ z.zsk = some env.zsk ∧
    z.dsRecord = some (generateDsRecord hashing zone env.ksk) ∧ z.lastRotation = some env.utcNow

theorem DNSRecord.eq_withInput_iff (r : DNSRecord) (input : DNSRecordInput) (now : Timestamp) :
    r = r.withInput input now ↔ r.Carries input now := by
  obtain ⟨id, name, recordType, ttl, value, dnssec, rrsig, txHash, createdAt, updatedAt⟩ := r
  unfold withInput Carries
  cases input.dnssec with
  | none => simp [and_comm, and_assoc]
  | some d => simp; grind

theorem eq_enabledZone_iff (hashing : Hashing) (env : Environment) (zone : String)
    (z : DNSSECZone) : z = enabledZone hashing env zone ↔ z.Carries hashing env zone true := by
  obtain ⟨name, enabled, ksk, zsk, dsRecord, lastRotation⟩ := z
  simp [enabledZone, DNSSECZone.Carries]

theorem DNSSECZone.eq_rotated_iff (hashing : Hashing) (env : Environment) {zone : String}
    {found : DNSSECZone} (h : found.zone = zone) (z : DNSSECZone) :
    z = found.rotated hashing env zone ↔ z.Carries hashing env zone found.enabled := by
  obtain ⟨name, enabled, ksk, zsk, dsRecord, lastRotation⟩ := z
  simp [rotated, Carries, h]

namespace Database

variable {α : Type} {db written : Database} {write : WriteAnswer} {row : Option α}
  {missing : AppError}

theorem runWrite_sameDns_iff :
    db.SameDns (db.runWrite write written row missing).1 ↔
      (write.applied = true → db.SameDns written) := by
  rw [runWrite_fst]
  split
  · next h => simp [h]
  · next h => simp [h, SameDns.refl]

theorem runWrite_provenance (h : db.provenance = written.provenance) :
    (db.runWrite write written row missing).1.provenance = db.provenance := by
  rw [runWrite_fst]
  split
  · exact h.symm
  · rfl

theorem createRecord_sameDns_iff (db : Database) (answers : DatabaseAnswers)
    (record : DNSRecord) :
    db.SameDns (db.createRecord answers record).1 ↔
      ¬ (answers.write.applied = true ∧ db.dnsRecords.get record.id = none) := by
  rw [createRecord]
  cases hget : db.dnsRecords.get record.id with
  | some _ => simp [SameDns.refl]
  | none =>
      simp only [runWrite_sameDns_iff, and_true]
      refine ⟨fun h happlied => ?_, fun h happlied => absurd happlied h⟩
      have hrow := (h happlied).1 record.id
      simp [hget] at hrow

theorem updateRecord_sameDns_iff (db : Database) (answers : DatabaseAnswers) (id : String)
    (record : DNSRecord) :
    db.SameDns (db.updateRecord answers id record).1 ↔
      ¬ (answers.write.applied = true ∧ ∃ old, db.dnsRecords.get id = some old ∧ old ≠ record) := by
  rw [updateRecord, runWrite_sameDns_iff]
  simp only [SameDns, implies_true, and_true, KeyedMap.get_eq_update_iff]
  grind

theorem deleteRecord_sameDns_iff (db : Database) (answers : DatabaseAnswers) (id : String) :
    db.SameDns (db.deleteRecord answers id).1 ↔
      ¬ (answers.write.applied = true ∧ ∃ old, db.dnsRecords.get id = some old) := by
  rw [deleteRecord, runWrite_sameDns_iff]
  simp only [SameDns, implies_true, and_true, KeyedMap.get_eq_remove_iff, not_and, not_exists,
    Option.eq_none_iff_forall_ne_some]

theorem upsertDnssecZone_sameDns_iff (db : Database) (answers : DatabaseAnswers)
    (zone : DNSSECZone) :
    db.SameDns (db.upsertDnssecZone answers zone).1 ↔
      ¬ (answers.write.applied = true ∧
        ∃ old, db.dnssecZones.get zone.zone = some old ∧ old ≠ zone) := by
  rw [upsertDnssecZone, runWrite_sameDns_iff]
  simp only [SameDns, implies_true, true_and, KeyedMap.get_eq_update_iff]
  grind

theorem storeProvenance_sameDns (db : Database) (answers : DatabaseAnswers)
    (p : BlockchainProvenance) : db.SameDns (db.storeProvenance answers p).1 := by
  rw [storeProvenance, runWrite_sameDns_iff]
  exact fun _ => ⟨fun _ => rfl, fun _ => rfl⟩

theorem storeProvenance_provenance_iff (db : Database) (answers : DatabaseAnswers)
    (p : BlockchainProvenance) :
    (db.storeProvenance answers p).1.provenance = db.provenance ↔
      ¬ answers.write.applied = true := by
  rw [storeProvenance, runWrite_fst]
  split
  · next h => simp [h]
  · next h => simp [h]

theorem createRecord_provenance (db : Database) (answers : DatabaseAnswers)
    (record : DNSRecord) : (db.createRecord answers record).1.provenance = db.provenance := by
  rw [createRecord]
  cases db.dnsRecords.get record.id with
  | some _ => rfl
  | none => exact runWrite_provenance rfl

theorem getRecord_ok_iff {db : Database} {answers : DatabaseAnswers} {id : String}
    {r : DNSRecord} :
    db.getRecord answers id = .ok r ↔
      answers.readError = none ∧ db.dnsRecords.get id = some r := by
  rw [getRecord]
  cases answers.readError with
  | some message => simp
  | none => cases db.dnsRecords.get id <;> simp

def firstZone (db : Database) (zone : String) : Option DNSSECZone :=
  db.dnssecZones.values.find? fun z => z.zone = zone

theorem getDnssecZone_ok_iff {db : Database} {answers : DatabaseAnswers} {zone : String}
    {z : DNSSECZone} :
    db.getDnssecZone answers zone = .ok z ↔
      answers.readError = none ∧ db.firstZone zone = some z := by
  rw [getDnssecZone, firstZone]
  cases answers.readError with
  | some message => simp
  | none => cases db.dnssecZones.values.find? fun z => z.zone = zone <;> simp

end Database

namespace AppState

variable (hashing : Hashing) (s : AppState)

def Consented (call : Call) : Prop :=
  ∃ identity ∈ call.identity,
    s.consent.requireDnsConsent call.environment.consentApi identity = .ok ()

/-- The call passes every check that its resolver makes before it writes to
`dns_records` or `dnssec_zones`, and the write has something to change. -/
def WritesDns (call : Call) : Prop :=
  call.environment.database.write.applied = true ∧
    match call.mutation with
    | .createDnsRecord input =>
        s.Consented call ∧ validateDnsRecord input = .ok () ∧
          s.db.dnsRecords.get call.environment.uuid = none
    | .updateDnsRecord id input =>
        call.environment.database.readError = none ∧ validateDnsRecord input = .ok () ∧
          ∃ old, s.db.dnsRecords.get id = some old ∧ ¬ old.Carries input call.environment.utcNow
    | .deleteDnsRecord id => ∃ old, s.db.dnsRecords.get id = some old
    | .enableDnssec zone =>
        ∃ old, s.db.dnssecZones.get zone = some old ∧
          ¬ old.Carries hashing call.environment zone true
    | .rotateDnssecKeys zone =>
        call.environment.database.readError = none ∧ ∃ found, s.db.firstZone zone = some found ∧
          ∃ old, s.db.dnssecZones.get zone = some old ∧
            ¬ old.Carries hashing call.environment zone found.enabled
    | _ => False

def Anchors (call : Call) : Prop :=
  match call.mutation with
  | .anchorToBlockchain recordId network =>
      call.environment.database.readError = none ∧
        (∃ r, s.db.dnsRecords.get recordId = some r) ∧ supportedNetwork network = true ∧
          (∃ receipt, call.environment.chain = .ok receipt) ∧
            call.environment.database.write.applied = true
  | _ => False

theorem createDnsRecord_sameDns_iff (identity : Option String) (env : Environment)
    (input : DNSRecordInput) :
    s.db.SameDns (s.createDnsRecord identity env input).1.db ↔
      ¬ s.WritesDns hashing ⟨identity, env, .createDnsRecord input⟩ := by
  unfold createDnsRecord WritesDns Consented
  cases identity with
  | none => simp [Database.SameDns.refl]
  | some identity =>
      dsimp only
      cases hconsent : s.consent.requireDnsConsent env.consentApi identity with
      | error err => simp [Database.SameDns.refl, hconsent]
      | ok _ =>
          cases hvalid : validateDnsRecord input with
          | error message => simp [Database.SameDns.refl]
          | ok _ => simp [Database.createRecord_sameDns_iff, DNSRecord.new, hconsent]

theorem updateDnsRecord_sameDns_iff (identity : Option String) (env : Environment) (id : String)
    (input : DNSRecordInput) :
    s.db.SameDns (s.updateDnsRecord env id input).1.db ↔
      ¬ s.WritesDns hashing ⟨identity, env, .updateDnsRecord id input⟩ := by
  rw [updateDnsRecord, WritesDns]
  cases hread : s.db.getRecord env.database id with
  | error err =>
      have hnone : ∀ r, ¬ (env.database.readError = none ∧ s.db.dnsRecords.get id = some r) :=
        fun r hr => by simp [Database.getRecord_ok_iff.mpr hr] at hread
      simp only [Database.SameDns.refl, true_iff]
      rintro ⟨_, hok, _, old, hold, _⟩
      exact hnone old ⟨hok, hold⟩
  | ok record =>
      obtain ⟨hok, hget⟩ := Database.getRecord_ok_iff.mp hread
      cases hvalid : validateDnsRecord input with
      | error message => simp [Database.SameDns.refl, hvalid]
      | ok _ =>
          simp [Database.updateRecord_sameDns_iff, hok, hget, hvalid, DNSRecord.eq_withInput_iff]

theorem deleteDnsRecord_sameDns_iff (identity : Option String) (env : Environment) (id : String) :
    s.db.SameDns (s.deleteDnsRecord env id).1.db ↔
      ¬ s.WritesDns hashing ⟨identity, env, .deleteDnsRecord id⟩ := by
  rw [deleteDnsRecord, WritesDns]
  exact Database.deleteRecord_sameDns_iff s.db env.database id

theorem enableDnssec_sameDns_iff (identity : Option String) (env : Environment) (zone : String) :
    s.db.SameDns (s.enableDnssec hashing env zone).1.db ↔
      ¬ s.WritesDns hashing ⟨identity, env, .enableDnssec zone⟩ := by
  rw [enableDnssec, WritesDns]
  rw [withDb_db, Database.upsertDnssecZone_sameDns_iff]
  simp only [ne_eq, eq_enabledZone_iff]
  rfl

theorem rotateDnssecKeys_sameDns_iff (identity : Option String) (env : Environment)
    (zone : String) :
    s.db.SameDns (s.rotateDnssecKeys hashing env zone).1.db ↔
      ¬ s.WritesDns hashing ⟨identity, env, .rotateDnssecKeys zone⟩ := by
  rw [rotateDnssecKeys, WritesDns]
  cases hread : s.db.getDnssecZone env.database zone with
  | error err =>
      simp only [Database.SameDns.refl, true_iff]
      rintro ⟨_, hok, found, hfound, _⟩
      simp [Database.getDnssecZone_ok_iff.mpr ⟨hok, hfound⟩] at hread
  | ok found =>
      obtain ⟨hok, hfound⟩ := Database.getDnssecZone_ok_iff.mp hread
      have hname : found.zone = zone := by simpa using List.find?_some hfound
      simp only [withDb_db, Database.upsertDnssecZone_sameDns_iff, ne_eq,
        DNSSECZone.eq_rotated_iff hashing env hname, hok, hfound, true_and, Option.some.injEq,
        exists_eq_left']
      simp [DNSSECZone.rotated, hname]

theorem anchorToBlockchain_sameDns (env : Environment) (recordId network : String) :
    s.db.SameDns (s.anchorToBlockchain hashing env recordId network).1.db := by
  rw [anchorToBlockchain]
  split
  · exact Database.SameDns.refl _
  · split
    · exact Database.SameDns.refl _
    · exact Database.storeProvenance_sameDns _ _ _

/-- The rows of the DNS tables change exactly in the calls that get through to
a write. -/
theorem perform_sameDns_iff (call : Call) :
    s.db.SameDns (s.perform hashing call).1.db ↔ ¬ s.WritesDns hashing call := by
  obtain ⟨identity, env, mutation⟩ := call
  cases mutation with
  | createDnsRecord input => exact s.createDnsRecord_sameDns_iff hashing identity env input
  | updateDnsRecord id input => exact s.updateDnsRecord_sameDns_iff hashing identity env id input
  | deleteDnsRecord id => exact s.deleteDnsRecord_sameDns_iff hashing identity env id
  | enableDnssec zone => exact s.enableDnssec_sameDns_iff hashing identity env zone
  | rotateDnssecKeys zone => exact s.rotateDnssecKeys_sameDns_iff hashing identity env zone
  | anchorToBlockchain recordId network =>
      simp [perform, WritesDns, anchorToBlockchain_sameDns]
  | proposeMutation mutationName payload =>
      cases identity <;> simp [perform, proposeMutation, WritesDns, Database.SameDns.refl]
  | approveMutation proposalId =>
      cases identity <;> simp [perform, approveMutation, WritesDns, Database.SameDns.refl]
  | executeMutation proposalId =>
      simp [perform, executeMutation, WritesDns, Database.SameDns.refl]

theorem anchorToBlockchain_provenance_iff (identity : Option String) (env : Environment)
    (recordId network : String) :
    (s.anchorToBlockchain hashing env recordId network).1.db.provenance = s.db.provenance ↔
      ¬ s.Anchors ⟨identity, env, .anchorToBlockchain recordId network⟩ := by
  rw [anchorToBlockchain, Anchors]
  cases hread : s.db.getRecord env.database recordId with
  | error err =>
      simp only [true_iff]
      rintro ⟨hok, ⟨r, hget⟩, _⟩
      simp [Database.getRecord_ok_iff.mpr ⟨hok, hget⟩] at hread
  | ok record =>
      obtain ⟨hok, hget⟩ := Database.getRecord_ok_iff.mp hread
      by_cases hnetwork : supportedNetwork network = true
      · cases env.chain with
        | error message => simp [anchorHash, hnetwork, Except.mapError]
        | ok receipt =>
            simp [anchorHash, hnetwork, Except.mapError,
              Database.storeProvenance_provenance_iff, hok, hget]
      · simp [anchorHash, hnetwork]

theorem perform_provenance_iff (call : Call) :
    (s.perform hashing call).1.db.provenance = s.db.provenance ↔ ¬ s.Anchors call := by
  obtain ⟨identity, env, mutation⟩ := call
  cases mutation with
  | createDnsRecord input =>
      simp only [perform, Anchors, not_false_eq_true, iff_true]
      unfold createDnsRecord
      split
      · rfl
      · split
        · rfl
        · split
          · rfl
          · exact Database.createRecord_provenance _ _ _
  | updateDnsRecord id input =>
      simp only [perform, Anchors, not_false_eq_true, iff_true]
      rw [updateDnsRecord]
      split
      · rfl
      · split
        · rfl
        · exact Database.runWrite_provenance rfl
  | deleteDnsRecord id =>
      simp only [perform, Anchors, not_false_eq_true, iff_true]
      exact Database.runWrite_provenance rfl
  | enableDnssec zone =>
      simp only [perform, Anchors, not_false_eq_true, iff_true]
      exact Database.runWrite_provenance rfl
  | rotateDnssecKeys zone =>
      simp only [perform, Anchors, not_false_eq_true, iff_true]
      rw [rotateDnssecKeys]
      split
      · rfl
      · exact Database.runWrite_provenance rfl
  | anchorToBlockchain recordId network =>
      exact s.anchorToBlockchain_provenance_iff hashing identity env recordId network
  | proposeMutation mutationName payload =>
      cases identity <;> simp [perform, proposeMutation, Anchors]
  | approveMutation proposalId =>
      cases identity <;> simp [perform, approveMutation, Anchors]
  | executeMutation proposalId => simp [perform, executeMutation, Anchors]

end AppState

end CivicConnect.GraphqlDns
