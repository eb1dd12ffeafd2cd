import CivicConnect.GraphqlDns.ZoneRuns
import CivicConnect.Json.Fields
import CivicConnect.Library.PrefixCode
import Mathlib.Data.List.Dedup

/-!
# The statistics

Four statements of `get_statistics` count rows. The second one selects the
column `type` and reads its groups into a structure whose field keeps the name
`record_type`, so that no group is read: the query answers for a table without
records only.
-/

namespace CivicConnect.GraphqlDns

open Json

namespace DNSRecordType

def ofVariantName (text : String) : Except DecodeError DNSRecordType :=
  match all.find? fun t => t.variantName = text with
  | some t => .ok t
  | none => .error (.unknownVariant text)

/-- A variant is a string, or the one key of an object that is bound to `null`. -/
def deserialize : JsonValue → Except DecodeError DNSRecordType
  | .string text => ofVariantName text
  | .object [(text, .null)] => ofVariantName text
  | found => .error (.invalidType found)

end DNSRecordType

def deserializeI32 (value : JsonValue) : Except DecodeError Int32 :=
  match value with
  | .number (.posInt n) =>
      if n.toNat < 2 ^ 31 then .ok (Int32.ofNat n.toNat) else .error (.invalidValue value)
  | .number (.negInt n) =>
      if -2 ^ 31 ≤ n.toInt then .ok (Int32.ofInt n.toInt) else .error (.invalidValue value)
  | _ => .error (.invalidType value)

structure RecordTypeCount where
  recordType : DNSRecordType
  count : Int32
  deriving DecidableEq

namespace RecordTypeCount

/-- The two fields, as far as they have been read. -/
abbrev Seen := Option DNSRecordType × Option Int32

/-- The field for the type is renamed for GraphQL alone, so that `serde` looks
for it under its own name. -/
def visitMember (seen : Seen) (member : String × JsonValue) : Except DecodeError Seen :=
  if member.1 = "record_type" then
    match seen.1 with
    | some _ => .error (.duplicateField "record_type")
    | none => do
        let recordType ← DNSRecordType.deserialize member.2
        return (some recordType, seen.2)
  else if member.1 = "count" then
    match seen.2 with
    | some _ => .error (.duplicateField "count")
    | none => do
        let count ← deserializeI32 member.2
        return (seen.1, some count)
  else .ok seen

def visitMembers (seen : Seen) : List (String × JsonValue) → Except DecodeError Seen
  | [] => .ok seen
  | member :: members => do
      let seen ← visitMember seen member
      visitMembers seen members

def ofSeen : Seen → Except DecodeError RecordTypeCount
  | (none, _) => .error (.missingField "record_type")
  | (some _, none) => .error (.missingField "count")
  | (some recordType, some count) => .ok ⟨recordType, count⟩

def deserializeItems : List JsonValue → Except DecodeError RecordTypeCount
  | [] => .error (.invalidLength 0)
  | first :: items => do
      let recordType ← DNSRecordType.deserialize first
      match items with
      | [] => .error (.invalidLength 1)
      | second :: rest => do
          let count ← deserializeI32 second
          if rest = [] then .ok ⟨recordType, count⟩ else .error .trailingItems

def deserialize : JsonValue → Except DecodeError RecordTypeCount
  | .object members => do
      let seen ← visitMembers (none, none) members
      ofSeen seen
  | .array items => deserializeItems items
  | found => .error (.invalidType found)

end RecordTypeCount

structure DNSStatistics where
  totalRecords : Int32
  recordsByType : List RecordTypeCount
  dnssecZones : Int32
  blockchainAnchored : Int32
  deriving DecidableEq

/-- What is the database engine's own: how `IS NOT NULL` takes the two values
of an optional column, the rows of `SELECT type, count()` with a group for each
type, and the words for a row that is not read and for a count beyond 32 bits. -/
structure QueryEngine where
  isNotNull : Option String → Bool
  isNotNull_some : ∀ text, isNotNull (some text) = true
  typeGroups : List DNSRecord → List JsonValue
  typeGroups_eq_nil_iff : ∀ records, typeGroups records = [] ↔ records = []
  typeGroups_columns : ∀ records, ∀ row ∈ typeGroups records,
    ∃ members, row = .object members ∧ (members.map Prod.fst).Perm ["type", "count"]
  decodeFailed : DecodeError → String
  outOfRange : ℕ → String

/-- The errors that the four statements meet, if any. -/
structure StatisticsErrors where
  total : Option String
  types : Option String
  dnssec : Option String
  blockchain : Option String

namespace Database

def empty : Database := ⟨∅, ∅, []⟩

/-- `take("count")` and `unwrap_or(0)`: without rows there is no group, and
that counts as zero. -/
def takeCount (engine : QueryEngine) (error : Option String) (count : ℕ) :
    Except AppError Int32 :=
  match error with
  | some message => .error (.database message)
  | none =>
      if count < 2 ^ 31 then .ok (Int32.ofNat count)
      else .error (.database (engine.outOfRange count))

def takeTypeCounts (db : Database) (engine : QueryEngine) (error : Option String) :
    Except AppError (List RecordTypeCount) :=
  match error with
  | some message => .error (.database message)
  | none =>
      ((engine.typeGroups db.dnsRecords.values).mapM RecordTypeCount.deserialize).mapError
        fun err => .database (engine.decodeFailed err)

def getStatistics (db : Database) (engine : QueryEngine) (errors : StatisticsErrors) :
    Except AppError (Int32 × List RecordTypeCount × Int32 × Int32) := do
  let totalRecords ← takeCount engine errors.total (db.dnsRecords.countRows fun _ _ => true)
  let typeCounts ← db.takeTypeCounts engine errors.types
  let dnssecZones ← takeCount engine errors.dnssec (db.dnssecZones.countRows fun _ z => z.enabled)
  let blockchainAnchored ← takeCount engine errors.blockchain
    (db.dnsRecords.countRows fun _ r => engine.isNotNull r.blockchainTxHash)
  return (totalRecords, typeCounts, dnssecZones, blockchainAnchored)

/-- The `statistics` query. -/
def statistics (db : Database) (engine : QueryEngine) (errors : StatisticsErrors) :
    Except AppError DNSStatistics := do
  let (totalRecords, recordsByType, dnssecZones, blockchainAnchored) ←
    db.getStatistics engine errors
  return { totalRecords, recordsByType, dnssecZones, blockchainAnchored }

def hasProvenance (db : Database) (id : String) : Bool :=
  db.provenance.any fun p => p.recordId = id

/-- The records for which at least one provenance row exists. -/
def anchoredRows (db : Database) : ℕ := db.dnsRecords.countRows fun id _ => db.hasProvenance id

end Database

/-- Without a member of that name the type is missing at the end. -/
theorem RecordTypeCount.visitMembers_fst {seen seen' : Seen} {members : List (String × JsonValue)}
    (hkeys : "record_type" ∉ members.map Prod.fst)
    (h : visitMembers seen members = .ok seen') : seen'.1 = seen.1 := by
  induction members generalizing seen with
  | nil =>
      obtain rfl := Except.ok.inj h
      rfl
  | cons member members ih =>
      rw [List.map_cons, List.mem_cons, not_or] at hkeys
      obtain ⟨next, hnext, hrest⟩ := Except.bind_ok_iff.mp h
      rw [ih hkeys.2 hrest]
      rw [visitMember, if_neg (Ne.symm hkeys.1)] at hnext
      split_ifs at hnext
      · split at hnext
        · cases hnext
        · obtain ⟨count, _, hseen⟩ := Except.bind_ok_iff.mp hnext
          rw [← Except.ok.inj hseen]
      · rw [Except.ok.inj hnext]

/-- No group of the second statement is read. -/
theorem QueryEngine.deserialize_typeGroup (engine : QueryEngine) {records : List DNSRecord}
    {row : JsonValue} (hrow : row ∈ engine.typeGroups records) :
    ∃ err, RecordTypeCount.deserialize row = .error err := by
  obtain ⟨members, rfl, hperm⟩ := engine.typeGroups_columns records row hrow
  have hkeys : "record_type" ∉ members.map Prod.fst := by
    rw [hperm.mem_iff]
    decide
  rw [RecordTypeCount.deserialize]
  cases hvisit : RecordTypeCount.visitMembers (none, none) members with
  | error err => exact ⟨err, rfl⟩
  | ok seen =>
      obtain ⟨recordType, count⟩ := seen
      obtain rfl : recordType = none := RecordTypeCount.visitMembers_fst hkeys hvisit
      exact ⟨.missingField "record_type", rfl⟩

namespace Database

/-- No record is stored. -/
def NoRecords (db : Database) : Prop := ∀ id, db.dnsRecords.get id = none

theorem values_eq_nil_iff {db : Database} : db.dnsRecords.values = [] ↔ db.NoRecords := by
  rw [KeyedMap.values, List.map_eq_nil_iff, List.eq_nil_iff_forall_not_mem]
  constructor
  · intro h id
    rw [Option.eq_none_iff_forall_not_mem]
    exact fun r hget => h ⟨id, r⟩ ((db.dnsRecords.mem_entries_iff id r).mpr hget)
  · rintro h ⟨id, r⟩ he
    have hget := (db.dnsRecords.mem_entries_iff id r).mp he
    rw [h id] at hget
    cases hget

theorem takeTypeCounts_ok_iff {db : Database} {engine : QueryEngine}
    {counts : List RecordTypeCount} :
    db.takeTypeCounts engine none = .ok counts ↔ db.NoRecords ∧ counts = [] := by
  rw [takeTypeCounts, ← values_eq_nil_iff, ← engine.typeGroups_eq_nil_iff]
  cases hgroups : engine.typeGroups db.dnsRecords.values with
  | nil => simp [Except.mapError, pure, Except.pure, eq_comm]
  | cons row rows =>
      obtain ⟨err, herr⟩ := engine.deserialize_typeGroup (hgroups ▸ List.mem_cons_self)
      simp [List.mapM_cons, herr, bind, Except.bind, Except.mapError]

theorem takeCount_of_lt (engine : QueryEngine) {count : ℕ} (h : count < 2 ^ 31) :
    takeCount engine none count = .ok (Int32.ofNat count) := if_pos h

/-- `statistics` answers, and its number of anchored records is right. -/
def ReturnsAnchored (db : Database) (engine : QueryEngine) : Prop :=
  ∃ stats, db.statistics engine ⟨none, none, none, none⟩ = .ok stats ∧
    stats.blockchainAnchored.toInt = db.anchoredRows

theorem NoRecords.countRows {db : Database} (h : db.NoRecords) (p : String → DNSRecord → Bool) :
    db.dnsRecords.countRows p = 0 := by
  rw [KeyedMap.countRows_eq_zero_iff]
  intro id r hget
  rw [h id] at hget
  cases hget

theorem returnsAnchored_iff {db : Database} {engine : QueryEngine}
    (hzones : ∀ zone, db.dnssecZones.get zone = none) :
    db.ReturnsAnchored engine ↔ db.NoRecords := by
  constructor
  · rintro ⟨stats, hstats, _⟩
    obtain ⟨_, hget, _⟩ := Except.bind_ok_iff.mp hstats
    obtain ⟨_, _, hget⟩ := Except.bind_ok_iff.mp hget
    obtain ⟨_, htypes, _⟩ := Except.bind_ok_iff.mp hget
    exact (takeTypeCounts_ok_iff.mp htypes).1
  · intro hnone
    have hrows : db.takeTypeCounts engine none = .ok [] :=
      takeTypeCounts_ok_iff.mpr ⟨hnone, rfl⟩
    have hzero : (db.dnssecZones.countRows fun _ z => z.enabled) = 0 := by
      rw [KeyedMap.countRows_eq_zero_iff]
      intro zone z hget
      rw [hzones zone] at hget
      cases hget
    have hcount : takeCount engine none 0 = .ok 0 := takeCount_of_lt engine (by decide)
    refine ⟨⟨0, [], 0, 0⟩, ?_, ?_⟩
    · rw [statistics, getStatistics, hnone.countRows, hnone.countRows, hzero, hcount, hrows]
      rfl
    · rw [anchoredRows, hnone.countRows]
      rfl

end Database

namespace AppState

variable (hashing : Hashing) (s : AppState)

/-- The call stores a new record. -/
def Creates (call : Call) : Prop :=
  (∃ input, call.mutation = .createDnsRecord input) ∧ s.WritesDns hashing call

theorem createDnsRecord_dnsRecords {identity : Option String} {env : Environment}
    {input : DNSRecordInput} (h : s.WritesDns hashing ⟨identity, env, .createDnsRecord input⟩) :
    ∃ r, r.blockchainTxHash = none ∧
      (s.createDnsRecord identity env input).1.db.dnsRecords = s.db.dnsRecords.set env.uuid r := by
  obtain ⟨happlied, ⟨identity', hidentity, hconsent⟩, hvalid, habsent⟩ := h
  obtain rfl : identity = some identity' := hidentity
  dsimp only at happlied hconsent habsent
  refine ⟨{ DNSRecord.new env.uuid env.utcNow input.name input.recordType input.ttl input.value with
    dnssec := input.dnssec.getD false }, rfl, ?_⟩
  simp only [createDnsRecord, hconsent, hvalid, withDb_db, Database.createRecord]
  simp only [DNSRecord.new, habsent, Database.runWrite_fst, if_pos happlied]

theorem createDnsRecord_row {identity : Option String} {env : Environment}
    {input : DNSRecordInput} {id : String} {r : DNSRecord}
    (h : (s.createDnsRecord identity env input).1.db.dnsRecords.get id = some r) :
    s.db.dnsRecords.get id = some r ∨
      s.Creates hashing ⟨identity, env, .createDnsRecord input⟩ ∧ id = env.uuid ∧
        r.blockchainTxHash = none := by
  by_cases hwrites : s.WritesDns hashing ⟨identity, env, .createDnsRecord input⟩
  · obtain ⟨new, hhash, hset⟩ := s.createDnsRecord_dnsRecords hashing hwrites
    rw [hset] at h
    by_cases hid : id = env.uuid
    · subst hid
      rw [KeyedMap.get_set_self] at h
      exact .inr ⟨⟨⟨input, rfl⟩, hwrites⟩, rfl, Option.some.inj h ▸ hhash⟩
    · rw [KeyedMap.get_set_ne _ _ hid] at h
      exact .inl h
  · have hsame := (s.createDnsRecord_sameDns_iff hashing identity env input).mpr hwrites
    exact .inl ((hsame.1 id).trans h)

theorem updateDnsRecord_row {env : Environment} {id id' : String} {input : DNSRecordInput}
    {r : DNSRecord} (h : (s.updateDnsRecord env id input).1.db.dnsRecords.get id' = some r) :
    ∃ old, s.db.dnsRecords.get id' = some old ∧ r.blockchainTxHash = old.blockchainTxHash := by
  rw [updateDnsRecord] at h
  cases hread : s.db.getRecord env.database id with
  | error err =>
      rw [hread] at h
      exact ⟨r, h, rfl⟩
  | ok found =>
      obtain ⟨_, hget⟩ := Database.getRecord_ok_iff.mp hread
      rw [hread] at h
      cases hvalid : validateDnsRecord input with
      | error message =>
          rw [hvalid] at h
          exact ⟨r, h, rfl⟩
      | ok _ =>
          simp only [hvalid, withDb_db, Database.updateRecord, Database.runWrite_fst] at h
          split at h
          · dsimp only at h
            rw [KeyedMap.get_update, hget, Option.map_some] at h
            split at h
            · next hid =>
                obtain rfl := Option.some.inj h
                exact ⟨found, hid ▸ hget, rfl⟩
            · exact ⟨r, h, rfl⟩
          · exact ⟨r, h, rfl⟩

theorem deleteDnsRecord_row {env : Environment} {id id' : String} {r : DNSRecord}
    (h : (s.deleteDnsRecord env id).1.db.dnsRecords.get id' = some r) :
    s.db.dnsRecords.get id' = some r := by
  simp only [deleteDnsRecord, withDb_db, Database.deleteRecord, Database.runWrite_fst] at h
  split at h
  · by_cases hid : id' = id
    · subst hid
      simp at h
    · rwa [KeyedMap.get_remove_ne _ hid] at h
  · exact h

theorem upsertDnssecZone_row {env : Environment} {zone : DNSSECZone} {id : String} {r : DNSRecord}
    (h : (s.db.upsertDnssecZone env.database zone).1.dnsRecords.get id = some r) :
    s.db.dnsRecords.get id = some r := by
  rw [Database.upsertDnssecZone, Database.runWrite_fst] at h
  split at h <;> exact h

/-- Where a row comes from: it stood there before, with the same hash, or the
call has just created it, without one. -/
theorem perform_row {call : Call} {id : String} {r : DNSRecord}
    (h : (s.perform hashing call).1.db.dnsRecords.get id = some r) :
    (∃ old, s.db.dnsRecords.get id = some old ∧ r.blockchainTxHash = old.blockchainTxHash) ∨
      s.Creates hashing call ∧ id = call.environment.uuid ∧ r.blockchainTxHash = none := by
  obtain ⟨identity, env, mutation⟩ := call
  cases mutation with
  | createDnsRecord input =>
      rcases s.createDnsRecord_row hashing h with hold | hnew
      · exact .inl ⟨r, hold, rfl⟩
      · exact .inr hnew
  | updateDnsRecord id' input => exact .inl (s.updateDnsRecord_row h)
  | deleteDnsRecord id' => exact .inl ⟨r, s.deleteDnsRecord_row h, rfl⟩
  | anchorToBlockchain recordId network =>
      have hsame := s.anchorToBlockchain_sameDns hashing env recordId network
      exact .inl ⟨r, (hsame.1 id).trans h, rfl⟩
  | enableDnssec zone => exact .inl ⟨r, s.upsertDnssecZone_row h, rfl⟩
  | rotateDnssecKeys zone =>
      simp only [perform, rotateDnssecKeys] at h
      split at h
      · exact .inl ⟨r, h, rfl⟩
      · exact .inl ⟨r, s.upsertDnssecZone_row h, rfl⟩
  | proposeMutation mutationName payload => cases identity <;> exact .inl ⟨r, h, rfl⟩
  | approveMutation proposalId => cases identity <;> exact .inl ⟨r, h, rfl⟩
  | executeMutation proposalId => exact .inl ⟨r, h, rfl⟩

variable {s} {call : Call}

theorem Creates.row (h : s.Creates hashing call) :
    ∃ r, (s.perform hashing call).1.db.dnsRecords.get call.environment.uuid = some r := by
  obtain ⟨identity, env, mutation⟩ := call
  obtain ⟨⟨input, rfl⟩, hwrites⟩ := h
  obtain ⟨r, _, hset⟩ := s.createDnsRecord_dnsRecords hashing hwrites
  exact ⟨r, by rw [perform, hset, KeyedMap.get_set_self]⟩

variable (policy : PolicyEnforcer) (consent : ConsentClient) (engine : QueryEngine)

/-- A server that starts with empty tables. -/
def started : AppState := ⟨Database.empty, policy, consent⟩

/-- There is no way to the first row of the zone table. -/
theorem started_noZones (calls : List Call) (zone : String) :
    ((started policy consent).after hashing calls).db.dnssecZones.get zone = none := by
  apply Machine.invariant_final (I := fun s : AppState => s.zoneRow zone = none)
  · intro call _ s hnone
    rcases s.zoneRow_perform hashing call zone with hsame | ⟨_, ⟨old, hold⟩, _⟩
    · exact hsame.trans hnone
    · rw [hnone] at hold
      cases hold
  · rfl

theorem perform_noRecords {s : AppState} {call : Call} (hnone : s.db.NoRecords)
    (hcall : ¬ s.Creates hashing call) : (s.perform hashing call).1.db.NoRecords := by
  intro id
  rw [Option.eq_none_iff_forall_not_mem]
  intro r hget
  rcases s.perform_row hashing hget with ⟨old, hold, _⟩ | ⟨hcreates, _⟩
  · rw [hnone id] at hold
    cases hold
  · exact hcall hcreates

/-- The right number is returned while no record is stored, and in every state
of a run just when the run stores none. -/
theorem statistics_count_anchored (calls : List Call) :
    (((started policy consent).after hashing calls).db.ReturnsAnchored engine ↔
        ((started policy consent).after hashing calls).db.NoRecords) ∧
      ((∀ before later, calls = before ++ later →
          ((started policy consent).after hashing before).db.ReturnsAnchored engine) ↔
        ∀ before call later, calls = before ++ call :: later →
          ¬ ((started policy consent).after hashing before).Creates hashing call) := by
  have hreturns : ∀ calls,
      ((started policy consent).after hashing calls).db.ReturnsAnchored engine ↔
        ((started policy consent).after hashing calls).db.NoRecords := fun calls =>
    Database.returnsAnchored_iff (started_noZones hashing policy consent calls)
  refine ⟨hreturns calls, ?_⟩
  constructor
  · intro h before call later heq hcreates
    have hnone := (hreturns _).mp (h (before ++ [call]) later (by simp [heq]))
    obtain ⟨r, hget⟩ := hcreates.row
    rw [after, Machine.final_append] at hnone
    exact absurd (hget.symm.trans (hnone _)) (Option.some_ne_none r)
  · intro h before later heq
    refine (hreturns before).mpr ?_
    apply Machine.always_of (I := fun s : AppState => s.db.NoRecords)
      (P := fun s call => ¬ s.Creates hashing call) _ (fun _ => rfl) h before later heq
    intro call _ s hnone hcall
    exact perform_noRecords hashing hnone hcall

theorem sampleTime_lt : 1000 < 2 ^ 63 := by decide

theorem length_sampleBytes : (List.replicate 32 (0 : UInt8)).length = 32 := List.length_replicate

def sampleHashing : Hashing := ⟨fun _ => ⟨List.replicate 32 0, length_sampleBytes⟩, Hex.engine⟩

/-- A call with an identity that consents, under the given identifier. -/
def sampleCall (uuid : String) (mutation : Mutation) : Call where
  identity := some "alice"
  environment :=
    { now := .ofSecs 1000 sampleTime_lt
      utcNow := 1000000000000
      uuid := uuid
      consentApi := fun _ => .response 200 (.ok (.object [("allowed", .bool true)]))
      database := ⟨none, .done, "taken"⟩
      ksk := "a3Nr"
      zsk := "enNr"
      chain := .ok ("0xabc", 7) }
  mutation := mutation

/-- Two records, of which the first one is anchored. -/
def sampleCalls : List Call :=
  [sampleCall "id-1" (.createDnsRecord ⟨"a.example", .TXT, 300, "x", none⟩),
    sampleCall "id-2" (.createDnsRecord ⟨"b.example", .TXT, 300, "y", none⟩),
    sampleCall "id-3" (.anchorToBlockchain "id-1" "sepolia")]

def sampleStart : AppState :=
  started (PolicyEnforcer.new ⟨[], []⟩) ⟨"http://localhost:8082", .percent⟩

/-- An engine that groups the records in the order of their types. -/
def groupingEngine : QueryEngine where
  isNotNull := Option.isSome
  isNotNull_some _ := rfl
  typeGroups records := (records.map DNSRecord.recordType).dedup.map fun t =>
    .object [("count", .number (.posInt (UInt64.ofNat
        (records.countP fun r => r.recordType = t)))),
      ("type", .string t.variantName)]
  typeGroups_eq_nil_iff records := by simp
  typeGroups_columns records row hrow := by
    obtain ⟨t, _, rfl⟩ := List.mem_map.mp hrow
    exact ⟨_, rfl, List.Perm.swap _ _ _⟩
  decodeFailed _ := "missing field"
  outOfRange _ := "number too large"

/-- One of two records is anchored, and no number is returned. -/
theorem anchored_record_not_counted :
    ¬ ∀ (engine : QueryEngine) (calls : List Call),
      (sampleStart.after sampleHashing calls).db.ReturnsAnchored engine := by
  intro hreturns
  have hnone : (sampleStart.after sampleHashing sampleCalls).db.NoRecords :=
    (Database.returnsAnchored_iff (started_noZones sampleHashing _ _ sampleCalls)).mp
      (hreturns groupingEngine sampleCalls)
  have hstored : ((sampleStart.after sampleHashing sampleCalls).db.dnsRecords.get "id-1").isSome =
      true := by
    decide
  rw [hnone "id-1"] at hstored
  cases hstored

end AppState

end CivicConnect.GraphqlDns
