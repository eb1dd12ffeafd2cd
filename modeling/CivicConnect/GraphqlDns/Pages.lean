import CivicConnect.GraphqlDns.Queries

/-!
# Reading page by page

A caller reads the records that meet a filter with one `dns_records` query
after another, up to the first page that is not full, while others call the API
between the queries. What is missed and what is read twice follows from the
position of a record among the selected ones.
-/

namespace CivicConnect.GraphqlDns

/-- The call changes or deletes a stored record. -/
def Call.Rewrites (call : Call) : Prop :=
  match call.mutation with
  | .updateDnsRecord _ _ => True
  | .deleteDnsRecord _ => True
  | _ => False

/-- The call writes a record as its input says. -/
def Call.Writes (call : Call) : Prop :=
  match call.mutation with
  | .createDnsRecord _ => True
  | .updateDnsRecord _ _ => True
  | _ => False

theorem AppState.rows_kept (hashing : Hashing) {s : AppState} {call : Call} {id : String}
    {r : DNSRecord} (hcall : ¬ call.Rewrites) (hget : s.rows id = some r) :
    (s.perform hashing call).1.rows id = some r := by
  by_cases hwrites : s.WritesDns hashing call
  · by_cases habout : AppState.Call.AboutRecords call
    · obtain ⟨identity, env, mutation⟩ := call
      cases mutation with
      | createDnsRecord input =>
          obtain ⟨new, _, hset⟩ := s.createDnsRecord_dnsRecords hashing hwrites
          obtain ⟨_, _, _, habsent⟩ := hwrites
          have hne : id ≠ env.uuid := by
            rintro rfl
            cases hget.symm.trans habsent
          change (s.createDnsRecord identity env input).1.db.dnsRecords.get id = some r
          rw [hset, KeyedMap.get_set_ne _ _ hne]
          exact hget
      | updateDnsRecord | deleteDnsRecord => exact absurd trivial hcall
      | enableDnssec | rotateDnssecKeys | anchorToBlockchain | proposeMutation | approveMutation
      | executeMutation => exact habout.elim
    · rw [s.rows_perform_of_not_about hashing habout]
      exact hget
  · have hsame := (s.perform_sameDns_iff hashing call).mpr hwrites
    exact (hsame.1 id).symm.trans hget

theorem AppState.rows_of_not_writes (hashing : Hashing) {s : AppState} {call : Call}
    {id : String} {r : DNSRecord} (hcall : ¬ call.Writes)
    (hget : (s.perform hashing call).1.rows id = some r) : s.rows id = some r := by
  rcases s.perform_row_cases hashing hget with
    hold | ⟨input, hmutation, _⟩ | ⟨input, old, hmutation, _⟩
  · exact hold
  · exact absurd (by rw [Call.Writes, hmutation]; trivial) hcall
  · exact absurd (by rw [Call.Writes, hmutation]; trivial) hcall

/-- The filter, the size of the pages and what others call between one page and
the next. The offsets fit into the integers of the query. -/
structure PageReader where
  name : Option String
  recordType : Option DNSRecordType
  limit : Int32
  between : List (List Call)
  limit_pos : 0 < limit
  offsets_lt : limit.toNatClampNeg * between.length < 2 ^ 31

namespace PageReader

variable (reader : PageReader) (hashing : Hashing) (engine : SelectEngine) (s : AppState)

def lastPage : ℕ := reader.between.length

/-- The server when page `k` is read. -/
def stateAt (k : ℕ) : AppState := s.after hashing (reader.between.take k).flatten

def offset (k : ℕ) : Int32 := Int32.ofNat (reader.limit.toNatClampNeg * k)

def pageAt (k : ℕ) : Except AppError (List DNSRecord) :=
  (reader.stateAt hashing s k).dnsRecords engine none reader.name reader.recordType
    (some reader.limit) (some (reader.offset k))

/-- The last page is not full. -/
def Ends : Prop :=
  ∃ rows, reader.pageAt hashing engine s reader.lastPage = .ok rows ∧
    rows.length < reader.limit.toNatClampNeg

/-- There is a record under the identifier that meets the filter when page `k`
is read. -/
def Selected (id : String) (k : ℕ) : Prop :=
  ∃ r, (reader.stateAt hashing s k).rows id = some r ∧
    selects reader.name reader.recordType r = true

/-- Page `k` has the record as it is stored then. -/
def ReadOn (id : String) (k : ℕ) : Prop :=
  ∃ rows r, reader.pageAt hashing engine s k = .ok rows ∧
    (reader.stateAt hashing s k).rows id = some r ∧ r ∈ rows

/-- The number of selected records before the identifier when page `k` is read. -/
def position (id : String) (k : ℕ) : ℕ :=
  (reader.stateAt hashing s k).db.earlier engine reader.name reader.recordType id

/-- No record begins to meet the filter between two pages. -/
def NoneAdded : Prop :=
  ∀ k < reader.lastPage, ∀ id, reader.Selected hashing s id (k + 1) → reader.Selected hashing s id k

/-- No record ceases to meet the filter between two pages. -/
def NoneTaken : Prop :=
  ∀ k < reader.lastPage, ∀ id, reader.Selected hashing s id k → reader.Selected hashing s id (k + 1)

def ReadOnce (id : String) : Prop :=
  ∀ k k', k ≤ reader.lastPage → k' ≤ reader.lastPage → reader.ReadOn hashing engine s id k →
    reader.ReadOn hashing engine s id k' → k = k'

variable {reader hashing engine s} {id : String} {k : ℕ}

theorem offset_nonneg (hk : k ≤ reader.lastPage) :
    reader.limit.toNatClampNeg * k < 2 ^ 31 ∧ 0 ≤ reader.offset k := by
  have hlt : reader.limit.toNatClampNeg * k < 2 ^ 31 :=
    (Nat.mul_le_mul_left _ hk).trans_lt reader.offsets_lt
  refine ⟨hlt, ?_⟩
  rw [Int32.le_iff_toInt_le, offset, Int32.toInt_ofNat_of_lt hlt]
  exact Int.natCast_nonneg _

theorem pageAt_eq (hk : k ≤ reader.lastPage) :
    ∃ rows, reader.pageAt hashing engine s k = .ok rows ∧
      rows.length = min reader.limit.toNatClampNeg
        ((reader.stateAt hashing s k).db.countSelected reader.name reader.recordType -
          reader.limit.toNatClampNeg * k) := by
  obtain ⟨hlt, hoffset⟩ := offset_nonneg hk
  refine ⟨_, Database.queryRecords_ok_iff.mpr
    ⟨rfl, Int32.le_of_lt reader.limit_pos, hoffset, rfl⟩, ?_⟩
  rw [List.length_map, Paging.length_page, Database.length_scan_filter]
  rw [offset, Int32.toNatClampNeg_ofNat_of_lt hlt]

/-- A selected record is read on the page that its position lies on. -/
theorem readOn_iff (hkeyed : s.db.Keyed) (hk : k ≤ reader.lastPage) :
    reader.ReadOn hashing engine s id k ↔ reader.Selected hashing s id k ∧
      Paging.OnPage reader.limit.toNatClampNeg k (reader.position hashing engine s id k) := by
  have hkeyed' : (reader.stateAt hashing s k).db.Keyed := s.keyed_after hashing hkeyed _
  obtain ⟨hlt, _⟩ := offset_nonneg hk
  have hmem : ∀ {rows r}, reader.pageAt hashing engine s k = .ok rows →
      (reader.stateAt hashing s k).rows id = some r →
      (r ∈ rows ↔ selects reader.name reader.recordType r = true ∧
        Paging.OnPage reader.limit.toNatClampNeg k (reader.position hashing engine s id k)) := by
    intro rows r hpage hget
    obtain rfl := hkeyed' id r hget
    rw [Database.mem_queryRecords_iff hkeyed' hpage, Option.getD_some, Option.getD_some, offset,
      Int32.toNatClampNeg_ofNat_of_lt hlt, Paging.OnPage, Nat.mul_succ]
    exact and_iff_right hget
  constructor
  · rintro ⟨rows, r, hpage, hget, hr⟩
    obtain ⟨hselects, hon⟩ := (hmem hpage hget).mp hr
    exact ⟨⟨r, hget, hselects⟩, hon⟩
  · rintro ⟨⟨r, hget, hselects⟩, hon⟩
    obtain ⟨rows, hpage, _⟩ := @pageAt_eq reader hashing engine s k hk
    exact ⟨rows, r, hpage, hget, (hmem hpage hget).mpr ⟨hselects, hon⟩⟩

/-- Every selected record stands before the end of the last page. -/
theorem Ends.position_lt (h : reader.Ends hashing engine s)
    (hselected : reader.Selected hashing s id reader.lastPage) :
    reader.position hashing engine s id reader.lastPage <
      reader.limit.toNatClampNeg * (reader.lastPage + 1) := by
  obtain ⟨rows, hpage, hshort⟩ := h
  obtain ⟨rows', hpage', hlength⟩ :=
    @pageAt_eq reader hashing engine s reader.lastPage le_rfl
  obtain rfl := Except.ok.inj (hpage.symm.trans hpage')
  obtain ⟨r, hget, hselects⟩ := hselected
  have hbefore : reader.position hashing engine s id reader.lastPage <
      (reader.stateAt hashing s reader.lastPage).db.countSelected reader.name reader.recordType :=
    Database.earlier_lt hget hselects
  rw [Nat.mul_succ]
  omega

theorem NoneAdded.position_antitone (h : reader.NoneAdded hashing s) (id : String) :
    ∀ i j, i ≤ j → j ≤ reader.lastPage →
      reader.position hashing engine s id j ≤ reader.position hashing engine s id i := by
  apply Paging.rel_of_step (r := fun i j => j ≤ i) Nat.le_refl fun hab hbc => hbc.trans hab
  intro k hk
  apply Database.earlier_mono
  intro id' r hget hselects
  exact h k hk id' ⟨r, hget, hselects⟩

theorem NoneTaken.position_monotone (h : reader.NoneTaken hashing s) (id : String) :
    ∀ i j, i ≤ j → j ≤ reader.lastPage →
      reader.position hashing engine s id i ≤ reader.position hashing engine s id j := by
  apply Paging.rel_of_step Nat.le_refl Nat.le_trans
  intro k hk
  apply Database.earlier_mono
  intro id' r hget hselects
  exact h k hk id' ⟨r, hget, hselects⟩

theorem stateAt_succ (hk : k < reader.lastPage) :
    ∃ calls ∈ reader.between, reader.stateAt hashing s (k + 1) =
      (reader.stateAt hashing s k).after hashing calls := by
  refine ⟨reader.between[k], List.getElem_mem hk, ?_⟩
  rw [stateAt, List.take_succ_eq_append_getElem hk, List.flatten_append, AppState.after,
    Machine.final_append, List.flatten_singleton]
  rfl

/-- Where nobody changes or deletes a record, none is taken. -/
theorem noneTaken_of_calls
    (h : ∀ calls ∈ reader.between, ∀ call ∈ calls, ¬ call.Rewrites) :
    reader.NoneTaken hashing s := by
  rintro k hk id ⟨r, hget, hselects⟩
  obtain ⟨calls, hcalls, heq⟩ := @stateAt_succ reader hashing s k hk
  refine ⟨r, ?_, hselects⟩
  rw [heq]
  apply Machine.invariant_final (I := fun s : AppState => s.rows id = some r) _ hget
  intro call hcall s hs
  exact AppState.rows_kept hashing (h calls hcalls call hcall) hs

/-- Where nobody creates or changes a record, none is added. -/
theorem noneAdded_of_calls
    (h : ∀ calls ∈ reader.between, ∀ call ∈ calls, ¬ call.Writes) :
    reader.NoneAdded hashing s := by
  rintro k hk id ⟨r, hget, hselects⟩
  obtain ⟨calls, hcalls, heq⟩ := @stateAt_succ reader hashing s k hk
  refine ⟨r, ?_, hselects⟩
  rw [heq] at hget
  by_contra hbefore
  exact absurd hget <| Machine.invariant_final (I := fun s : AppState => s.rows id ≠ some r)
    (fun call hcall s hs hafter =>
      hs (AppState.rows_of_not_writes hashing (h calls hcalls call hcall) hafter)) hbefore

/-- For a record that meets the filter all along: while others only take records
away it is missed exactly where it slips onto a page that is read already, and
never read twice; while they only add records it is never missed, and read twice
exactly where it rises onto a page that is still to be read. -/
theorem read_once_iff (hkeyed : s.db.Keyed) (hends : reader.Ends hashing engine s)
    (hstays : ∀ k ≤ reader.lastPage, reader.Selected hashing s id k) :
    (reader.NoneAdded hashing s →
      reader.ReadOnce hashing engine s id ∧
        ((∃ k ≤ reader.lastPage, reader.ReadOn hashing engine s id k) ↔
          ∀ k < reader.lastPage, ¬ Paging.Slips reader.limit.toNatClampNeg
            (reader.position hashing engine s id) k)) ∧
    (reader.NoneTaken hashing s →
      (∃ k ≤ reader.lastPage, reader.ReadOn hashing engine s id k) ∧
        (reader.ReadOnce hashing engine s id ↔
          ∀ k < reader.lastPage, ¬ Paging.Rises reader.limit.toNatClampNeg
            (reader.position hashing engine s id) k)) := by
  have hend := hends.position_lt (hstays reader.lastPage le_rfl)
  have hread : ∀ k ≤ reader.lastPage, (reader.ReadOn hashing engine s id k ↔
      Paging.OnPage reader.limit.toNatClampNeg k (reader.position hashing engine s id k)) :=
    fun k hk => (readOn_iff hkeyed hk).trans (and_iff_right (hstays k hk))
  have hsome : (∃ k ≤ reader.lastPage, reader.ReadOn hashing engine s id k) ↔
      ∃ k ≤ reader.lastPage, Paging.OnPage reader.limit.toNatClampNeg k
        (reader.position hashing engine s id k) :=
    exists_congr fun k => and_congr_right fun hk => hread k hk
  have honce : reader.ReadOnce hashing engine s id ↔
      ∀ k k', k ≤ reader.lastPage → k' ≤ reader.lastPage →
        Paging.OnPage reader.limit.toNatClampNeg k (reader.position hashing engine s id k) →
        Paging.OnPage reader.limit.toNatClampNeg k' (reader.position hashing engine s id k') →
          k = k' :=
    forall_congr' fun k => forall_congr' fun k' => forall_congr' fun hk =>
      forall_congr' fun hk' => by rw [hread k hk, hread k' hk']
  rw [hsome, honce]
  constructor
  · intro hadded
    have hfalls := @NoneAdded.position_antitone reader hashing engine s hadded id
    exact ⟨fun k k' hk hk' => Paging.OnPage.eq_of_antitone hfalls hk hk',
      Paging.exists_onPage_iff_of_antitone hfalls hend⟩
  · intro htaken
    have hrises := @NoneTaken.position_monotone reader hashing engine s htaken id
    obtain ⟨k, _, hk, hon⟩ := Paging.exists_onPage (Nat.zero_le reader.lastPage) (by simp) hend
      fun k _ hk => Paging.not_slips_of_monotone hrises hk
    exact ⟨⟨k, hk, hon⟩, Paging.onPage_unique_iff_of_monotone hrises hend⟩

/-- Pages of one record; the first record is deleted after the first page. -/
def sample : PageReader where
  name := none
  recordType := some .TXT
  limit := 1
  between := [[AppState.sampleCall "id-4" (.deleteDnsRecord "id-1")]]
  limit_pos := by decide
  offsets_lt := by decide

def sampleServer : AppState :=
  AppState.sampleStart.after AppState.sampleHashing AppState.sampleCalls

theorem sampleServer_keyed : sampleServer.db.Keyed := by
  apply AppState.keyed_after
  intro id r hget
  cases (KeyedMap.get_empty id).symm.trans hget

theorem sample_noneAdded : sample.NoneAdded AppState.sampleHashing sampleServer := by
  apply noneAdded_of_calls
  simp [sample, AppState.sampleCall, Call.Writes]

theorem sample_ends : sample.Ends AppState.sampleHashing codePointEngine sampleServer := by
  obtain ⟨rows, hpage, hlength⟩ :=
    @pageAt_eq sample AppState.sampleHashing codePointEngine sampleServer sample.lastPage le_rfl
  exact ⟨rows, hpage, by rw [hlength]; decide⟩

theorem sample_selected (k : ℕ) (hk : k ≤ sample.lastPage) :
    sample.Selected AppState.sampleHashing sampleServer "id-2" k := by
  have hpages : ∀ k ≤ 1, ((sample.stateAt AppState.sampleHashing sampleServer k).rows "id-2").any
      (selects sample.name sample.recordType) = true := by decide
  exact (Option.any_eq_true _ _).mp (hpages k hk)

/-- Pages of one record; a record that comes first is made after the first page. -/
def growing : PageReader where
  name := none
  recordType := some .TXT
  limit := 1
  between :=
    [[AppState.sampleCall "id-0" (.createDnsRecord ⟨"c.example", .TXT, 300, "z", none⟩)], [], []]
  limit_pos := by decide
  offsets_lt := by decide

theorem growing_noneTaken : growing.NoneTaken AppState.sampleHashing sampleServer := by
  apply noneTaken_of_calls
  simp [growing, AppState.sampleCall, Call.Rewrites]

theorem growing_ends : growing.Ends AppState.sampleHashing codePointEngine sampleServer := by
  obtain ⟨rows, hpage, hlength⟩ :=
    @pageAt_eq growing AppState.sampleHashing codePointEngine sampleServer growing.lastPage le_rfl
  exact ⟨rows, hpage, by rw [hlength]; decide⟩

theorem growing_selected (k : ℕ) (hk : k ≤ growing.lastPage) :
    growing.Selected AppState.sampleHashing sampleServer "id-1" k := by
  have hpages : ∀ k ≤ 3, ((growing.stateAt AppState.sampleHashing sampleServer k).rows "id-1").any
      (selects growing.name growing.recordType) = true := by decide
  exact (Option.any_eq_true _ _).mp (hpages k hk)

/-- The second record is missed while the first one is deleted, and the first one
is read twice while another is made before it. -/
theorem read_once_iff_sample :
    (sample.NoneAdded AppState.sampleHashing sampleServer ∧
      ¬ ∃ k ≤ sample.lastPage,
        sample.ReadOn AppState.sampleHashing codePointEngine sampleServer "id-2" k) ∧
    growing.NoneTaken AppState.sampleHashing sampleServer ∧
      (∃ k ≤ growing.lastPage,
        growing.ReadOn AppState.sampleHashing codePointEngine sampleServer "id-1" k) ∧
      ¬ growing.ReadOnce AppState.sampleHashing codePointEngine sampleServer "id-1" := by
  obtain ⟨_, hmissed⟩ :=
    (read_once_iff sampleServer_keyed sample_ends sample_selected).1 sample_noneAdded
  obtain ⟨hread, htwice⟩ :=
    (read_once_iff sampleServer_keyed growing_ends growing_selected).2 growing_noneTaken
  refine ⟨⟨sample_noneAdded, fun hsome => ?_⟩, growing_noneTaken, hread, fun honce => ?_⟩
  · exact hmissed.mp hsome 0 Nat.zero_lt_one ⟨by decide, by decide⟩
  · exact htwice.mp honce 0 (by decide) ⟨by decide, by decide⟩

end PageReader

end CivicConnect.GraphqlDns
