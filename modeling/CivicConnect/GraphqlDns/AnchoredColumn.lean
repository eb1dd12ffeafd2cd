import CivicConnect.GraphqlDns.Statistics

/-!
# The column of the anchors

The last statement of `get_statistics` counts the records whose own row has a
transaction hash. The column stays empty: an anchor is a row of another table.
-/

namespace CivicConnect.GraphqlDns

namespace Database

/-- The rows that the statement counts. -/
def countedAnchored (db : Database) (engine : QueryEngine) : ℕ :=
  db.dnsRecords.countRows fun _ r => engine.isNotNull r.blockchainTxHash

/-- No record has a transaction hash in its own row. -/
def Hashless (db : Database) : Prop :=
  ∀ id r, db.dnsRecords.get id = some r → r.blockchainTxHash = none

/-- Either no row counts as anchored or all of them do. -/
theorem Hashless.countedAnchored {db : Database} (h : db.Hashless) (engine : QueryEngine) :
    db.countedAnchored engine = db.dnsRecords.countRows fun _ _ => engine.isNotNull none :=
  db.dnsRecords.countRows_congr fun id r hget => by rw [h id r hget]

theorem hasProvenance_iff {db : Database} {id : String} :
    db.hasProvenance id = true ↔ ∃ p ∈ db.provenance, p.recordId = id := by
  simp [hasProvenance]

end Database

namespace AppState

variable (hashing : Hashing) (s : AppState)

/-- The call stores a record, under an identifier that has no provenance row. -/
def CreatesUnanchored (call : Call) : Prop :=
  s.Creates hashing call ∧ s.db.hasProvenance call.environment.uuid = false

/-- The call sets the statistic apart from the rows. Where the engine takes a
missing hash for null, that is any anchoring; where it does not, all records
count, and that is the creation of a record without an anchor. -/
def Miscounts (engine : QueryEngine) (call : Call) : Prop :=
  if engine.isNotNull none then s.CreatesUnanchored hashing call else s.Anchors call

variable {s} {call : Call}

theorem Creates.not_anchors (h : s.Creates hashing call) : ¬ s.Anchors call := by
  obtain ⟨identity, env, mutation⟩ := call
  obtain ⟨⟨input, rfl⟩, _⟩ := h
  exact id

/-- An anchoring appends a row for a record that is there. -/
theorem Anchors.provenance (h : s.Anchors call) :
    ∃ p r, s.db.dnsRecords.get p.recordId = some r ∧
      (s.perform hashing call).1.db.dnsRecords.get p.recordId = some r ∧
      (s.perform hashing call).1.db.provenance = s.db.provenance ++ [p] := by
  obtain ⟨identity, env, mutation⟩ := call
  cases mutation with
  | anchorToBlockchain recordId network =>
      obtain ⟨hread, ⟨r, hget⟩, hnetwork, ⟨⟨txHash, blockNumber⟩, hchain⟩, happlied⟩ := h
      dsimp only at hread hchain happlied
      have hfound : s.db.getRecord env.database recordId = .ok r :=
        Database.getRecord_ok_iff.mpr ⟨hread, hget⟩
      refine ⟨⟨recordId, r.contentHash hashing, network, txHash, blockNumber, env.utcNow⟩, r, hget,
        ?_, ?_⟩
      · have hsame := s.anchorToBlockchain_sameDns hashing env recordId network
        exact (hsame.1 recordId).symm.trans hget
      · simp only [perform, anchorToBlockchain, hfound, anchorHash, hnetwork, hchain, withDb_db,
          Except.mapError, if_true, Database.storeProvenance, Database.runWrite_fst,
          if_pos happlied]
  | createDnsRecord => exact h.elim
  | updateDnsRecord => exact h.elim
  | deleteDnsRecord => exact h.elim
  | enableDnssec => exact h.elim
  | rotateDnssecKeys => exact h.elim
  | proposeMutation => exact h.elim
  | approveMutation => exact h.elim
  | executeMutation => exact h.elim

theorem perform_hasProvenance (call : Call) {id : String} (h : s.db.hasProvenance id = true) :
    (s.perform hashing call).1.db.hasProvenance id = true := by
  rw [Database.hasProvenance_iff] at h ⊢
  obtain ⟨p, hp, hid⟩ := h
  by_cases hanchors : s.Anchors call
  · obtain ⟨new, _, _, _, hrows⟩ := hanchors.provenance hashing
    exact ⟨p, hrows ▸ List.mem_append_left _ hp, hid⟩
  · exact ⟨p, (s.perform_provenance_iff hashing call).mpr hanchors ▸ hp, hid⟩

theorem perform_hashless (call : Call) (h : s.db.Hashless) :
    (s.perform hashing call).1.db.Hashless := by
  intro id r hget
  rcases s.perform_row hashing hget with ⟨old, hold, hhash⟩ | ⟨_, _, hhash⟩
  · exact hhash.trans (h id old hold)
  · exact hhash

end AppState

namespace Database

/-- The rows for which the engine's reading of a missing hash is right. -/
def AnchorsAgree (db : Database) (engine : QueryEngine) : Prop :=
  ∀ id r, db.dnsRecords.get id = some r → db.hasProvenance id = engine.isNotNull none

theorem anchorsAgree_iff {db : Database} (engine : QueryEngine) :
    db.AnchorsAgree engine ↔
      db.anchoredRows = db.dnsRecords.countRows fun _ _ => engine.isNotNull none := by
  unfold AnchorsAgree anchoredRows
  cases engine.isNotNull none with
  | true => rw [KeyedMap.countRows_eq_all_iff]
  | false =>
      have hnone : (db.dnsRecords.countRows fun _ _ => false) = 0 :=
        (KeyedMap.countRows_eq_zero_iff _ _).mpr fun _ _ _ => rfl
      rw [hnone, KeyedMap.countRows_eq_zero_iff]

theorem Hashless.countedAnchored_eq_iff {db : Database} (h : db.Hashless) (engine : QueryEngine) :
    db.countedAnchored engine = db.anchoredRows ↔ db.AnchorsAgree engine := by
  rw [h.countedAnchored, anchorsAgree_iff, eq_comm]

end Database

namespace AppState

variable (hashing : Hashing) {s : AppState} {call : Call} (engine : QueryEngine)

theorem perform_anchorsAgree (hengine : engine.isNotNull none = true)
    (hcall : ¬ s.CreatesUnanchored hashing call) (h : s.db.AnchorsAgree engine) :
    (s.perform hashing call).1.db.AnchorsAgree engine := by
  intro id r hget
  rw [hengine]
  rcases s.perform_row hashing hget with ⟨old, hold, _⟩ | ⟨hcreates, rfl, _⟩
  · exact perform_hasProvenance hashing call ((h id old hold).trans hengine)
  · cases hprovenance : s.db.hasProvenance call.environment.uuid with
    | true => exact perform_hasProvenance hashing call hprovenance
    | false => exact absurd ⟨hcreates, hprovenance⟩ hcall

/-- A call that sets the statistic apart from the rows is seen in the state it
leaves behind. -/
theorem not_miscounts_of_agree (h : (s.perform hashing call).1.db.AnchorsAgree engine) :
    ¬ s.Miscounts hashing engine call := by
  rw [Miscounts]
  cases hengine : engine.isNotNull none with
  | true =>
      rw [if_pos rfl]
      rintro ⟨hcreates, hprovenance⟩
      obtain ⟨r, hget⟩ := hcreates.row
      have hrow := (h _ r hget).trans hengine
      rw [Database.hasProvenance,
        (s.perform_provenance_iff hashing call).mpr hcreates.not_anchors] at hrow
      exact absurd (hprovenance.symm.trans hrow) (by decide)
  | false =>
      rw [if_neg (by decide)]
      intro hanchors
      obtain ⟨p, r, _, hget, hrows⟩ := hanchors.provenance hashing
      have hrow := (h _ r hget).trans hengine
      have hanchored : (s.perform hashing call).1.db.hasProvenance p.recordId = true :=
        Database.hasProvenance_iff.mpr ⟨p, hrows ▸ List.mem_append_right _ List.mem_cons_self, rfl⟩
      exact absurd (hanchored.symm.trans hrow) (by decide)

variable (policy : PolicyEnforcer) (consent : ConsentClient) {calls : List Call}

variable (policy : PolicyEnforcer) (consent : ConsentClient) {calls : List Call}

theorem started_hashless (calls : List Call) :
    ((started policy consent).after hashing calls).db.Hashless :=
  Machine.invariant_final (I := fun s : AppState => s.db.Hashless)
    (fun call _ _ h => perform_hashless hashing call h) (fun _ _ h => by cases h)

theorem agree_of_not_miscounts
    (h : ∀ before call later, calls = before ++ call :: later →
      ¬ ((started policy consent).after hashing before).Miscounts hashing engine call)
    (before later : List Call) (heq : calls = before ++ later) :
    ((started policy consent).after hashing before).db.AnchorsAgree engine := by
  cases hengine : engine.isNotNull none with
  | true =>
      apply Machine.always_of (I := fun s : AppState => s.db.AnchorsAgree engine)
        (P := fun s call => ¬ s.Miscounts hashing engine call) _ _ h before later heq
      · intro call _ s hagree hcall
        rw [Miscounts, if_pos hengine] at hcall
        exact perform_anchorsAgree hashing engine hengine hcall hagree
      · intro _ _ hget
        cases hget
  | false =>
      have hempty : ((started policy consent).after hashing before).db.provenance = [] := by
        apply Machine.always_of (I := fun s : AppState => s.db.provenance = [])
          (P := fun s call => ¬ s.Miscounts hashing engine call) _ rfl h before later heq
        intro call _ s hnone hcall
        rw [Miscounts, hengine, if_neg (by decide)] at hcall
        exact ((s.perform_provenance_iff hashing call).mpr hcall).trans hnone
      intro id r _
      rw [Database.hasProvenance, hempty, hengine, List.any_nil]

/-- The statement counts the anchored records throughout a run just when no call
of the run sets the two numbers apart. -/
theorem anchored_column_counts_iff (calls : List Call) :
    (∀ before later, calls = before ++ later →
        ((started policy consent).after hashing before).db.countedAnchored engine =
          ((started policy consent).after hashing before).db.anchoredRows) ↔
      ∀ before call later, calls = before ++ call :: later →
        ¬ ((started policy consent).after hashing before).Miscounts hashing engine call := by
  have hagree : ∀ before,
      ((started policy consent).after hashing before).db.countedAnchored engine =
        ((started policy consent).after hashing before).db.anchoredRows ↔
          ((started policy consent).after hashing before).db.AnchorsAgree engine := fun before =>
    (started_hashless hashing policy consent before).countedAnchored_eq_iff engine
  constructor
  · intro h before call later heq
    have hafter := (hagree (before ++ [call])).mp (h (before ++ [call]) later (by simp [heq]))
    rw [after, Machine.final_append] at hafter
    exact not_miscounts_of_agree hashing engine hafter
  · intro h before later heq
    exact (hagree before).mpr
      (agree_of_not_miscounts hashing engine policy consent h before later heq)

end AppState

end CivicConnect.GraphqlDns
