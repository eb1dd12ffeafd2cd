import CivicConnect.GraphqlDns.RecordRuns

/-!
# Runs of the provenance log

Provenance rows are only added. The query for one takes the first row that the
database returns for the record, and the database returns them in an order of
its own, which enters as a parameter.
-/

namespace CivicConnect.GraphqlDns

namespace Database

variable (order : List BlockchainProvenance → List BlockchainProvenance)

def getProvenance (db : Database) (answers : DatabaseAnswers) (recordId : String) :
    Except AppError BlockchainProvenance :=
  match answers.readError with
  | some message => .error (.database message)
  | none =>
      (order (db.provenance.filter fun p => p.recordId = recordId)).head?.elim
        (.error (.recordNotFound ("No provenance for record " ++ recordId))) .ok

theorem getProvenance_ok_iff {db : Database} {answers : DatabaseAnswers} {recordId : String}
    {p : BlockchainProvenance} :
    db.getProvenance order answers recordId = .ok p ↔ answers.readError = none ∧
      (order (db.provenance.filter fun p => p.recordId = recordId)).head? = some p := by
  rw [getProvenance]
  cases answers.readError with
  | some message => simp
  | none =>
      cases (order (db.provenance.filter fun p => p.recordId = recordId)).head? <;> simp

end Database

namespace AppState

variable (hashing : Hashing) (s : AppState)
  (order : List BlockchainProvenance → List BlockchainProvenance)

/-- The `blockchain_provenance` query, which hides every error. -/
def blockchainProvenance (answers : DatabaseAnswers) (recordId : String) :
    Option BlockchainProvenance :=
  match s.db.getProvenance order answers recordId with
  | .ok provenance => some provenance
  | .error _ => none

/-- The row is what anchoring the record as it is now makes of the answer of the
chain, at the time of the call. -/
def Receipt (call : Call) (p : BlockchainProvenance) : Prop :=
  s.Anchors call ∧ call.mutation = .anchorToBlockchain p.recordId p.network ∧
    supportedNetwork p.network = true ∧
      (∃ r, s.rows p.recordId = some r ∧ p.contentHash = r.contentHash hashing) ∧
        call.environment.chain = .ok (p.txHash, p.blockNumber) ∧
          p.timestamp = call.environment.utcNow

theorem Receipt.unique {call : Call} {p q : BlockchainProvenance}
    (hp : s.Receipt hashing call p) (hq : s.Receipt hashing call q) : p = q := by
  obtain ⟨recordId, contentHash, network, txHash, blockNumber, timestamp⟩ := p
  obtain ⟨recordId', contentHash', network', txHash', blockNumber', timestamp'⟩ := q
  obtain ⟨_, hmutation, _, ⟨r, hget, hhash⟩, hchain, htime⟩ := hp
  obtain ⟨_, hmutation', _, ⟨r', hget', hhash'⟩, hchain', htime'⟩ := hq
  dsimp only at hmutation hget hhash hchain htime hmutation' hget' hhash' hchain' htime'
  obtain ⟨rfl, rfl⟩ := Mutation.anchorToBlockchain.inj (hmutation.symm.trans hmutation')
  obtain rfl := Option.some.inj (hget.symm.trans hget')
  obtain ⟨rfl, rfl⟩ := Prod.mk.inj (Except.ok.inj (hchain.symm.trans hchain'))
  rw [hhash, hhash', htime, htime']

/-- An anchoring adds its receipt at the end. -/
theorem provenance_of_anchors {call : Call} (h : s.Anchors call) :
    ∃ p, s.Receipt hashing call p ∧
      (s.perform hashing call).1.db.provenance = s.db.provenance ++ [p] := by
  obtain ⟨identity, env, mutation⟩ := call
  have hanchors := h
  cases mutation with
  | anchorToBlockchain recordId network =>
      obtain ⟨hread, ⟨r, hget⟩, hnetwork, ⟨⟨txHash, blockNumber⟩, hchain⟩, happlied⟩ := h
      dsimp only at hread hchain happlied
      have hfound : s.db.getRecord env.database recordId = .ok r :=
        Database.getRecord_ok_iff.mpr ⟨hread, hget⟩
      refine ⟨⟨recordId, r.contentHash hashing, network, txHash, blockNumber, env.utcNow⟩,
        ⟨hanchors, rfl, hnetwork, ⟨r, hget, rfl⟩, hchain, rfl⟩, ?_⟩
      simp only [perform, anchorToBlockchain, hfound, anchorHash, hnetwork, hchain, withDb_db,
        Except.mapError, if_true, Database.storeProvenance, Database.runWrite_fst,
        if_pos happlied]
  | createDnsRecord => exact h.elim
  | updateDnsRecord => exact h.elim
  | deleteDnsRecord => exact h.elim
  | enableDnssec => exact h.elim
  | rotateDnssecKeys => exact h.elim
  | proposeMutation => exact h.elim
  | approveMutation => exact h.elim
  | executeMutation => exact h.elim

/-- The log of a run from an empty one holds the receipts of its anchorings. -/
theorem mem_provenance_after_iff (hempty : s.db.provenance = []) (calls : List Call)
    (p : BlockchainProvenance) : p ∈ (s.after hashing calls).db.provenance ↔
      ∃ before call later, calls = before ++ call :: later ∧
        (s.after hashing before).Receipt hashing call p := by
  induction calls using List.reverseRecOn with
  | nil =>
      rw [after, Machine.final_nil, hempty]
      constructor
      · intro hp
        exact absurd hp List.not_mem_nil
      · rintro ⟨before, call, later, heq, _⟩
        exact absurd heq.symm (List.append_ne_nil_of_right_ne_nil before (List.cons_ne_nil _ _))
  | append_singleton pre call ih =>
      have hsplit : (∃ before call' later, pre ++ [call] = before ++ call' :: later ∧
          (s.after hashing before).Receipt hashing call' p) ↔
          (∃ before call' later, pre = before ++ call' :: later ∧
            (s.after hashing before).Receipt hashing call' p) ∨
          (s.after hashing pre).Receipt hashing call p := by
        constructor
        · rintro ⟨before, call', later, heq, hreceipt⟩
          cases later using List.reverseRecOn with
          | nil =>
              obtain ⟨rfl, hcall⟩ := List.append_inj' heq rfl
              obtain rfl := List.singleton_inj.mp hcall
              exact Or.inr hreceipt
          | append_singleton later last =>
              rw [← List.cons_append, ← List.append_assoc] at heq
              obtain ⟨rfl, _⟩ := List.append_inj' heq rfl
              exact Or.inl ⟨before, call', later, rfl, hreceipt⟩
        · rintro (⟨before, call', later, rfl, hreceipt⟩ | hreceipt)
          · refine ⟨before, call', later ++ [call], ?_, hreceipt⟩
            rw [List.append_assoc, List.cons_append]
          · exact ⟨pre, call, [], rfl, hreceipt⟩
      rw [hsplit, ← ih, after, Machine.final_append]
      change p ∈ ((s.after hashing pre).perform hashing call).1.db.provenance ↔ _
      by_cases hanchors : (s.after hashing pre).Anchors call
      · obtain ⟨q, hreceipt, hrows⟩ := (s.after hashing pre).provenance_of_anchors hashing hanchors
        rw [hrows, List.mem_append, List.mem_singleton]
        apply or_congr_right
        constructor
        · rintro rfl
          exact hreceipt
        · intro hp
          exact Receipt.unique hashing _ hp hreceipt
      · rw [((s.after hashing pre).perform_provenance_iff hashing call).mpr hanchors]
        exact (or_iff_left fun hp => hanchors hp.1).symm

/-- Whatever the order, over any run from an empty log the query answers with
the receipt of an anchoring of the record, made of the row as it was then, and
it has no answer exactly while the record has not been anchored or the database
does not answer. -/
theorem provenance_answers (horder : ∀ rows, (order rows).Perm rows)
    (hempty : s.db.provenance = []) (calls : List Call) (answers : DatabaseAnswers) (id : String) :
    (∀ p, (s.after hashing calls).blockchainProvenance order answers id = some p →
      p.recordId = id ∧ ∃ before call later, calls = before ++ call :: later ∧
        (s.after hashing before).Receipt hashing call p) ∧
    ((s.after hashing calls).blockchainProvenance order answers id = none ↔
      answers.readError ≠ none ∨ ∀ before call later network, calls = before ++ call :: later →
        call.mutation = .anchorToBlockchain id network →
          ¬ (s.after hashing before).Anchors call) := by
  have hmem : ∀ p, p ∈ order ((s.after hashing calls).db.provenance.filter fun p =>
      p.recordId = id) ↔ p.recordId = id ∧ ∃ before call later,
        calls = before ++ call :: later ∧ (s.after hashing before).Receipt hashing call p := by
    intro p
    rw [(horder _).mem_iff, List.mem_filter, s.mem_provenance_after_iff hashing hempty,
      decide_eq_true_iff, and_comm]
  constructor
  · intro p hquery
    rw [blockchainProvenance] at hquery
    split at hquery
    · next q hq =>
        obtain rfl := Option.some.inj hquery
        obtain ⟨_, hhead⟩ := (Database.getProvenance_ok_iff order).mp hq
        exact (hmem q).mp (List.mem_of_head? hhead)
    · cases hquery
  · rw [blockchainProvenance]
    cases hread : (s.after hashing calls).db.getProvenance order answers id with
    | ok q =>
        obtain ⟨hok, hhead⟩ := (Database.getProvenance_ok_iff order).mp hread
        obtain ⟨rfl, before, call, later, heq, hreceipt⟩ := (hmem q).mp (List.mem_of_head? hhead)
        apply iff_of_false nofun
        rintro (herror | hnever)
        · exact herror hok
        · exact hnever before call later q.network heq hreceipt.2.1 hreceipt.1
    | error err =>
        apply iff_of_true rfl
        by_cases hok : answers.readError = none
        · right
          intro before call later network heq hmutation hanchors
          obtain ⟨q, hreceipt, _⟩ :=
            (s.after hashing before).provenance_of_anchors hashing hanchors
          have hid : q.recordId = id := by
            rw [hreceipt.2.1] at hmutation
            exact (Mutation.anchorToBlockchain.inj hmutation).1
          have hq := (hmem q).mpr ⟨hid, before, call, later, heq, hreceipt⟩
          obtain ⟨first, rest, hrows⟩ := List.exists_cons_of_ne_nil (List.ne_nil_of_mem hq)
          have hfound : (s.after hashing calls).db.getProvenance order answers id = .ok first :=
            (Database.getProvenance_ok_iff order).mpr ⟨hok, by rw [hrows]; rfl⟩
          cases hread.symm.trans hfound
        · exact Or.inl hok

theorem provenance_answers_sample :
    ∃ p before call later,
      (sampleStart.after sampleHashing sampleCalls).blockchainProvenance id ⟨none, .done, ""⟩
          "id-1" = some p ∧
        sampleCalls = before ++ call :: later ∧
          (sampleStart.after sampleHashing before).Receipt sampleHashing call p := by
  obtain ⟨p, hquery⟩ := Option.isSome_iff_exists.mp
    (by decide : ((sampleStart.after sampleHashing sampleCalls).blockchainProvenance id
      ⟨none, .done, ""⟩ "id-1").isSome = true)
  obtain ⟨_, before, call, later, heq, hreceipt⟩ :=
    (provenance_answers sampleHashing sampleStart id (fun _ => List.Perm.refl _) rfl sampleCalls
      ⟨none, .done, ""⟩ "id-1").1 p hquery
  exact ⟨p, before, call, later, hquery, heq, hreceipt⟩

end AppState

end CivicConnect.GraphqlDns
