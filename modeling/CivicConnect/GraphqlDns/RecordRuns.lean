import CivicConnect.GraphqlDns.Anchors
import CivicConnect.GraphqlDns.Statistics
import Mathlib.Logic.Function.Basic

/-!
# Runs of the record table

What the callers of a run have been told about the records, against what the
table holds: each reply that reports a row puts or removes it, and every other
reply reports nothing.
-/

namespace CivicConnect.GraphqlDns

inductive RowEvent where
  | put (id : String) (row : DNSRecord)
  | remove (id : String)

def RowEvent.apply (rows : String → Option DNSRecord) : RowEvent → String → Option DNSRecord
  | put id row => Function.update rows id (some row)
  | remove id => Function.update rows id none

/-- What a reply says about a row. -/
def CallRecord.rowEvent (r : CallRecord) : Option RowEvent :=
  match r.call.mutation, r.result with
  | .createDnsRecord _, .ok (.record row) => some (.put row.id row)
  | .updateDnsRecord id _, .ok (.record row) => some (.put id row)
  | .deleteDnsRecord id, .ok (.deleted _) => some (.remove id)
  | _, _ => none

/-- The rows as the callers know them, who knew `rows` to begin with. -/
def told (rows : String → Option DNSRecord) (log : List CallRecord) :
    String → Option DNSRecord := (log.filterMap CallRecord.rowEvent).foldl RowEvent.apply rows

theorem told_append (rows : String → Option DNSRecord) (log log' : List CallRecord) :
    told rows (log ++ log') = told (told rows log) log' := by
  rw [told, List.filterMap_append, List.foldl_append]
  rfl

/-- An error tells nobody anything. -/
theorem told_error (rows : String → Option DNSRecord) (call : Call) (err : ApiError) :
    told rows [⟨call, .error err⟩] = rows := by
  obtain ⟨identity, env, mutation⟩ := call
  cases mutation <;> rfl

theorem Database.runWrite_ok {α : Type} {db written : Database} {write : WriteAnswer}
    {row : Option α} {missing : AppError} {a : α}
    (h : (db.runWrite write written row missing).2 = .ok a) :
    (db.runWrite write written row missing).1 = written ∧ row = some a := by
  cases write with
  | done =>
      cases row with
      | none => cases h
      | some b => exact ⟨rfl, congrArg some (Except.ok.inj h)⟩
  | refused message => cases h
  | unread message => cases h

theorem Database.createRecord_stored {db : Database} {answers : DatabaseAnswers}
    {record row : DNSRecord} (h : (db.createRecord answers record).2 = .ok row) :
    row = record ∧
      (db.createRecord answers record).1.dnsRecords = db.dnsRecords.set record.id record := by
  unfold createRecord at h ⊢
  split at h
  · cases h
  · obtain ⟨hwritten, hsame⟩ := Database.runWrite_ok h
    rw [hwritten]
    exact ⟨(Option.some.inj hsame).symm, rfl⟩

namespace AppState

variable (hashing : Hashing) (s : AppState)

def rows (id : String) : Option DNSRecord := s.db.dnsRecords.get id

theorem withDb_ok {α : Type} {result : Database × Except AppError α} {reply : α → Reply}
    {answer : Reply} (h : (s.withDb result reply).2 = .ok answer) :
    ∃ a, result.2 = .ok a ∧ answer = reply a := by
  obtain ⟨db, outcome⟩ := result
  cases outcome with
  | error err => cases h
  | ok a => exact ⟨a, rfl, (Except.ok.inj h).symm⟩

theorem rows_createDnsRecord {identity : Option String} {env : Environment}
    {input : DNSRecordInput} {reply : Reply}
    (h : (s.createDnsRecord identity env input).2 = .ok reply) :
    ∃ row, reply = .record row ∧
      (s.createDnsRecord identity env input).1.rows = Function.update s.rows row.id (some row) := by
  unfold createDnsRecord at h ⊢
  split at h
  · cases h
  · split at h
    · cases h
    · split at h
      · cases h
      · obtain ⟨row, hrow, rfl⟩ := s.withDb_ok h
        obtain ⟨rfl, hwritten⟩ := Database.createRecord_stored hrow
        refine ⟨_, rfl, ?_⟩
        funext id
        change (s.db.createRecord env.database _).1.dnsRecords.get id = _
        rw [hwritten, KeyedMap.get_set, Function.update_apply]
        rfl

theorem rows_updateDnsRecord {env : Environment} {id : String} {input : DNSRecordInput}
    {reply : Reply} (h : (s.updateDnsRecord env id input).2 = .ok reply) :
    ∃ row, reply = .record row ∧
      (s.updateDnsRecord env id input).1.rows = Function.update s.rows id (some row) := by
  unfold updateDnsRecord at h ⊢
  split at h
  · cases h
  · split at h
    · cases h
    · obtain ⟨row, hrow, rfl⟩ := s.withDb_ok h
      refine ⟨row, rfl, ?_⟩
      obtain ⟨hwritten, hsame⟩ := Database.runWrite_ok hrow
      obtain ⟨old, hold, rfl⟩ := Option.map_eq_some_iff.mp hsame
      funext id'
      simp only [rows, withDb_db, Database.updateRecord]
      rw [hwritten, KeyedMap.get_update, hold, Function.update_apply]
      rfl

theorem rows_deleteDnsRecord {env : Environment} {id : String} {reply : Reply}
    (h : (s.deleteDnsRecord env id).2 = .ok reply) :
    ∃ b, reply = .deleted b ∧
      (s.deleteDnsRecord env id).1.rows = Function.update s.rows id none := by
  unfold deleteDnsRecord at h ⊢
  obtain ⟨b, hb, rfl⟩ := s.withDb_ok h
  refine ⟨b, rfl, ?_⟩
  obtain ⟨hwritten, _⟩ := Database.runWrite_ok hb
  funext id'
  simp only [rows, withDb_db, Database.deleteRecord]
  rw [hwritten, Function.update_apply]
  split
  · next heq => rw [heq, KeyedMap.get_remove_self]
  · next hne => exact KeyedMap.get_remove_ne _ hne

theorem rows_upsertDnssecZone (answers : DatabaseAnswers) (zone : DNSSECZone) (id : String) :
    (s.db.upsertDnssecZone answers zone).1.dnsRecords.get id = s.rows id := by
  rw [Database.upsertDnssecZone, Database.runWrite_fst]
  split <;> rfl

/-- The call is one of the three that are about records. -/
def Call.AboutRecords (call : Call) : Prop :=
  match call.mutation with
  | .createDnsRecord _ => True
  | .updateDnsRecord _ _ => True
  | .deleteDnsRecord _ => True
  | _ => False

theorem rows_perform_of_not_about {call : Call} (h : ¬ Call.AboutRecords call) :
    (s.perform hashing call).1.rows = s.rows := by
  obtain ⟨identity, env, mutation⟩ := call
  funext id
  cases mutation with
  | createDnsRecord input => exact absurd trivial h
  | updateDnsRecord id' input => exact absurd trivial h
  | deleteDnsRecord id' => exact absurd trivial h
  | enableDnssec zone => exact s.rows_upsertDnssecZone _ _ id
  | rotateDnssecKeys zone =>
      simp only [perform, rotateDnssecKeys]
      split
      · rfl
      · exact s.rows_upsertDnssecZone _ _ id
  | anchorToBlockchain recordId network =>
      exact ((s.anchorToBlockchain_sameDns hashing env recordId network).1 id).symm
  | proposeMutation mutationName payload => cases identity <;> rfl
  | approveMutation proposalId => cases identity <;> rfl
  | executeMutation proposalId => rfl

/-- A call that succeeds changes the rows as its reply says. -/
theorem rows_perform {call : Call} {reply : Reply} (h : (s.perform hashing call).2 = .ok reply) :
    (s.perform hashing call).1.rows = told s.rows [⟨call, .ok reply⟩] := by
  obtain ⟨identity, env, mutation⟩ := call
  cases mutation with
  | createDnsRecord input =>
      obtain ⟨row, rfl, hrows⟩ := s.rows_createDnsRecord h
      exact hrows
  | updateDnsRecord id input =>
      obtain ⟨row, rfl, hrows⟩ := s.rows_updateDnsRecord h
      exact hrows
  | deleteDnsRecord id =>
      obtain ⟨b, rfl, hrows⟩ := s.rows_deleteDnsRecord h
      exact hrows
  | enableDnssec zone => exact s.rows_perform_of_not_about hashing id
  | rotateDnssecKeys zone => exact s.rows_perform_of_not_about hashing id
  | anchorToBlockchain recordId network => exact s.rows_perform_of_not_about hashing id
  | proposeMutation mutationName payload => exact s.rows_perform_of_not_about hashing id
  | approveMutation proposalId => exact s.rows_perform_of_not_about hashing id
  | executeMutation proposalId => exact s.rows_perform_of_not_about hashing id

/-- The database changes a row for the call and loses the answer. -/
def LosesAnswer (call : Call) : Prop :=
  Call.AboutRecords call ∧ s.WritesDns hashing call ∧
    ∃ message, call.environment.database.write = .unread message

theorem zones_perform_of_about {call : Call} (h : Call.AboutRecords call) :
    (s.perform hashing call).1.db.dnssecZones = s.db.dnssecZones := by
  obtain ⟨identity, env, mutation⟩ := call
  cases mutation with
  | createDnsRecord input =>
      simp only [perform, createDnsRecord]
      split
      · rfl
      · split
        · rfl
        · split
          · rfl
          · rw [withDb_db, Database.createRecord]
            split
            · rfl
            · rw [Database.runWrite_fst]
              split <;> rfl
  | updateDnsRecord id input =>
      simp only [perform, updateDnsRecord]
      split
      · rfl
      · split
        · rfl
        · rw [withDb_db, Database.updateRecord, Database.runWrite_fst]
          split <;> rfl
  | deleteDnsRecord id =>
      simp only [perform, deleteDnsRecord]
      rw [withDb_db, Database.deleteRecord, Database.runWrite_fst]
      split <;> rfl
  | enableDnssec => exact h.elim
  | rotateDnssecKeys => exact h.elim
  | anchorToBlockchain => exact h.elim
  | proposeMutation => exact h.elim
  | approveMutation => exact h.elim
  | executeMutation => exact h.elim

/-- A call about records that has something to write succeeds unless the
database loses the answer. -/
theorem perform_result_of_writes {call : Call} (h : Call.AboutRecords call)
    (hwrites : s.WritesDns hashing call) :
    (∃ err, (s.perform hashing call).2 = .error err) ↔
      ∃ message, call.environment.database.write = .unread message := by
  obtain ⟨identity, env, mutation⟩ := call
  obtain ⟨happlied, hwrites⟩ := hwrites
  have hanswer : (env.database.write = .done) ∨
      ∃ message, env.database.write = .unread message := by
    cases hwrite : env.database.write with
    | done => exact Or.inl rfl
    | refused message =>
        dsimp only at happlied
        rw [hwrite] at happlied
        cases happlied
    | unread message => exact Or.inr ⟨message, rfl⟩
  cases mutation with
  | createDnsRecord input =>
      obtain ⟨⟨identity', hidentity, hconsent⟩, hvalid, habsent⟩ := hwrites
      obtain rfl : identity = some identity' := hidentity
      dsimp only at hconsent habsent ⊢
      simp only [perform, createDnsRecord, hconsent, hvalid, Database.createRecord, withDb]
      simp only [DNSRecord.new, habsent]
      rcases hanswer with hdone | ⟨message, hunread⟩
      · simp [hdone, Database.runWrite]
      · simp [hunread, Database.runWrite]
  | updateDnsRecord id input =>
      obtain ⟨hread, hvalid, old, hold, _⟩ := hwrites
      dsimp only at hread ⊢
      have hfound : s.db.getRecord env.database id = .ok old :=
        Database.getRecord_ok_iff.mpr ⟨hread, hold⟩
      simp only [perform, updateDnsRecord, hfound, hvalid, Database.updateRecord, hold, withDb]
      rcases hanswer with hdone | ⟨message, hunread⟩
      · simp [hdone, Database.runWrite]
      · simp [hunread, Database.runWrite]
  | deleteDnsRecord id =>
      dsimp only
      simp only [perform, deleteDnsRecord, Database.deleteRecord, withDb]
      rcases hanswer with hdone | ⟨message, hunread⟩
      · simp [hdone, Database.runWrite]
      · simp [hunread, Database.runWrite]
  | enableDnssec => exact h.elim
  | rotateDnssecKeys => exact h.elim
  | anchorToBlockchain => exact h.elim
  | proposeMutation => exact h.elim
  | approveMutation => exact h.elim
  | executeMutation => exact h.elim

/-- A row changes behind an error exactly where the database loses its answer. -/
theorem losesAnswer_iff (call : Call) : s.LosesAnswer hashing call ↔
    (s.perform hashing call).1.rows ≠ s.rows ∧ ∃ err, (s.perform hashing call).2 = .error err := by
  constructor
  · rintro ⟨habout, hwrites, hunread⟩
    refine ⟨?_, (s.perform_result_of_writes hashing habout hwrites).mpr hunread⟩
    intro hrows
    apply (s.perform_sameDns_iff hashing call).mp _ hwrites
    refine ⟨fun id => (congrFun hrows id).symm, fun zone => ?_⟩
    rw [s.zones_perform_of_about hashing habout]
  · rintro ⟨hrows, herror⟩
    have habout : Call.AboutRecords call := by
      by_contra hother
      exact hrows (s.rows_perform_of_not_about hashing hother)
    have hwrites : s.WritesDns hashing call := by
      by_contra hnot
      have hsame := (s.perform_sameDns_iff hashing call).mpr hnot
      exact hrows (funext fun id => (hsame.1 id).symm)
    exact ⟨habout, hwrites, (s.perform_result_of_writes hashing habout hwrites).mp herror⟩

theorem rows_step_iff {call : Call} {rows : String → Option DNSRecord} {log : List CallRecord}
    (h : s.rows = told rows log) :
    (s.step hashing call).1.rows = told rows (log ++ [(s.step hashing call).2]) ↔
      ¬ s.LosesAnswer hashing call := by
  rw [told_append, ← h, step, losesAnswer_iff]
  cases hresult : (s.perform hashing call).2 with
  | error err => simp [told_error]
  | ok reply => simp [s.rows_perform hashing hresult]

/-- Callers and table agree all along a run exactly when the database loses no
answer to a write that changes a row; the replies of such a run are a log from
which every row can be restored. -/
theorem told_iff_stored (calls : List Call) :
    (∀ before later, calls = before ++ later →
        (s.after hashing before).rows = told s.rows (s.log hashing before)) ↔
      ∀ before call later, calls = before ++ call :: later →
        ¬ (s.after hashing before).LosesAnswer hashing call := by
  constructor
  · intro h before call later heq
    have hbefore := h before (call :: later) heq
    have hafter := h (before ++ [call]) later (by simp [heq])
    rw [after, Machine.final_append, log, Machine.trace_append] at hafter
    exact ((s.after hashing before).rows_step_iff hashing hbefore).mp hafter
  · intro h before
    induction before using List.reverseRecOn with
    | nil => exact fun _ _ => rfl
    | append_singleton before call ih =>
        intro later heq
        rw [List.append_assoc, List.singleton_append] at heq
        rw [after, Machine.final_append, log, Machine.trace_append]
        exact ((s.after hashing before).rows_step_iff hashing (ih _ heq)).mpr
          (h before call later heq)

/-- Where a row comes from: it stood there before, or the call has created it,
or it is a row that stood there with the input of an update. -/
theorem perform_row_cases {call : Call} {id : String} {r : DNSRecord}
    (h : (s.perform hashing call).1.rows id = some r) :
    s.rows id = some r ∨
      (∃ input, call.mutation = .createDnsRecord input ∧ id = call.environment.uuid ∧
        s.Consented call ∧ validateDnsRecord input = .ok () ∧
          r = { DNSRecord.new id call.environment.utcNow input.name input.recordType input.ttl
            input.value with dnssec := input.dnssec.getD false }) ∨
      ∃ input old, call.mutation = .updateDnsRecord id input ∧ s.rows id = some old ∧
        validateDnsRecord input = .ok () ∧ r = old.withInput input call.environment.utcNow := by
  obtain ⟨identity, env, mutation⟩ := call
  by_cases habout : Call.AboutRecords ⟨identity, env, mutation⟩
  · cases mutation with
    | createDnsRecord input =>
        change (s.createDnsRecord identity env input).1.db.dnsRecords.get id = some r at h
        unfold createDnsRecord at h
        split at h
        · exact Or.inl h
        · next identity' =>
            split at h
            · exact Or.inl h
            · next hconsent =>
                split at h
                · exact Or.inl h
                · next hvalid =>
                    rw [withDb_db, Database.createRecord] at h
                    split at h
                    · exact Or.inl h
                    · rw [Database.runWrite_fst] at h
                      split at h
                      · dsimp only at h
                        rw [KeyedMap.get_set] at h
                        split at h
                        · next hid =>
                            obtain rfl := Option.some.inj h
                            obtain rfl : id = env.uuid := hid
                            exact Or.inr (Or.inl ⟨input, rfl, rfl, ⟨identity', rfl, hconsent⟩,
                              hvalid, rfl⟩)
                        · exact Or.inl h
                      · exact Or.inl h
    | updateDnsRecord id' input =>
        change (s.updateDnsRecord env id' input).1.db.dnsRecords.get id = some r at h
        unfold updateDnsRecord at h
        split at h
        · exact Or.inl h
        · next old hread =>
            obtain ⟨_, hold⟩ := Database.getRecord_ok_iff.mp hread
            split at h
            · exact Or.inl h
            · next hvalid =>
                rw [withDb_db, Database.updateRecord, Database.runWrite_fst] at h
                split at h
                · dsimp only at h
                  rw [KeyedMap.get_update, hold] at h
                  split at h
                  · next hid =>
                      obtain rfl := Option.some.inj h
                      subst hid
                      exact Or.inr (Or.inr ⟨input, old, rfl, hold, hvalid, rfl⟩)
                  · exact Or.inl h
                · exact Or.inl h
    | deleteDnsRecord id' => exact Or.inl (s.deleteDnsRecord_row h)
    | enableDnssec => exact habout.elim
    | rotateDnssecKeys => exact habout.elim
    | anchorToBlockchain => exact habout.elim
    | proposeMutation => exact habout.elim
    | approveMutation => exact habout.elim
    | executeMutation => exact habout.elim
  · rw [s.rows_perform_of_not_about hashing habout] at h
    exact Or.inl h

/-- The row under `id` is a checked one with no signature and no transaction
hash, and the run `pre` has created it, for an identity that consented then and
at the time that the row carries. -/
def Stems (pre : List Call) (id : String) (r : DNSRecord) : Prop :=
  r.id = id ∧ validateDnsRecord r.input = .ok () ∧ r.rrsig = none ∧ r.blockchainTxHash = none ∧
    ∃ before call later input, pre = before ++ call :: later ∧
      call.mutation = .createDnsRecord input ∧ call.environment.uuid = id ∧
        (s.after hashing before).Consented call ∧ r.createdAt = call.environment.utcNow

variable {s} {hashing}

theorem Stems.snoc {pre : List Call} {id : String} {r : DNSRecord} (h : s.Stems hashing pre id r)
    (call : Call) : s.Stems hashing (pre ++ [call]) id r := by
  obtain ⟨hid, hvalid, hrrsig, hhash, before, creation, later, input, rfl, hcreation⟩ := h
  refine ⟨hid, hvalid, hrrsig, hhash, before, creation, later ++ [call], input, ?_, hcreation⟩
  rw [List.append_assoc, List.cons_append]

theorem Stems.withInput {pre : List Call} {id : String} {old : DNSRecord}
    {input : DNSRecordInput} {now : Timestamp} (h : s.Stems hashing pre id old)
    (hvalid : validateDnsRecord input = .ok ()) :
    s.Stems hashing pre id (old.withInput input now) := by
  obtain ⟨hid, _, hrrsig, hhash, hcreation⟩ := h
  exact ⟨hid, hvalid, hrrsig, hhash, hcreation⟩

/-- On a server that started with no records, every stored record is checked and
goes back to a creation that its identity's consent allowed. -/
theorem records_stem_from_consent (hempty : ∀ id, s.rows id = none) (calls : List Call)
    (id : String) (r : DNSRecord) (hget : (s.after hashing calls).rows id = some r) :
    s.Stems hashing calls id r := by
  induction calls using List.reverseRecOn generalizing id r with
  | nil =>
      rw [after, Machine.final_nil, hempty] at hget
      cases hget
  | append_singleton pre call ih =>
      rw [after, Machine.final_append] at hget
      rcases (s.after hashing pre).perform_row_cases hashing hget with
        hold | ⟨input, hmutation, rfl, hconsent, hvalid, rfl⟩ | ⟨input, old, _, hold, hvalid, rfl⟩
      · exact (ih id r hold).snoc call
      · exact ⟨rfl, hvalid, rfl, rfl, pre, call, [], input, rfl, hmutation, rfl, hconsent, rfl⟩
      · exact ((ih id old hold).snoc call).withInput hvalid

theorem records_stem_from_consent_sample :
    ∃ r, (sampleStart.after sampleHashing sampleCalls).rows "id-1" = some r ∧
      sampleStart.Stems sampleHashing sampleCalls "id-1" r := by
  obtain ⟨r, hget⟩ := Option.isSome_iff_exists.mp
    (by decide : ((sampleStart.after sampleHashing sampleCalls).rows "id-1").isSome = true)
  exact ⟨r, hget, records_stem_from_consent (fun _ => rfl) sampleCalls "id-1" r hget⟩

end AppState

end CivicConnect.GraphqlDns
