import CivicConnect.GraphqlDns.RecordRuns
import CivicConnect.GraphqlDns.ReverseNames
import CivicConnect.Library.Paging
import CivicConnect.Library.Ranking

/-!
# Queries of records

`query_records` reads one page of the rows that meet its conditions, in the
order in which the database scans the table. Where every row is stored under
its own identifier, a row is on the page exactly where the number of selected
rows before it says so.
-/

namespace CivicConnect.GraphqlDns

/-- What is the database engine's own: the order of record identifiers in which
a table is scanned, and the words that refuse a negative limit or start. -/
structure SelectEngine where
  le : String → String → Bool
  order : Ranking.Order le
  invalidLimit : Int32 → String
  invalidStart : Int32 → String

/-- An engine that scans identifiers in the order of their code points. -/
def codePointEngine : SelectEngine where
  le a b := Ranking.lexLE Char.toNat a.toList b.toList
  order := Ranking.order_codePoints
  invalidLimit _ := "The LIMIT clause must evaluate to a positive integer"
  invalidStart _ := "The START clause must evaluate to a positive integer"

structure ReverseDNSResult where
  ip : String
  hostnames : List String
  ptrRecords : List DNSRecord
  deriving DecidableEq

/-- The conditions of the statement with their values bound. -/
def conditions (name : Option String) (recordType : Option DNSRecordType) :
    List (DNSRecord → Bool) :=
  (name.toList.map fun name r => r.name == name) ++
    recordType.toList.map fun recordType r => r.recordType.variantName == recordType.variantName

def selects (name : Option String) (recordType : Option DNSRecordType) (r : DNSRecord) : Bool :=
  (conditions name recordType).all fun condition => condition r

theorem selects_iff {name : Option String} {recordType : Option DNSRecordType} {r : DNSRecord} :
    selects name recordType r = true ↔
      (∀ n, name = some n → r.name = n) ∧ ∀ t, recordType = some t → r.recordType = t := by
  cases name <;> cases recordType <;>
    simp [selects, conditions, DNSRecordType.variantName_inj]

namespace Database

variable (db : Database) (engine : SelectEngine)

def scan : List (Σ _ : String, DNSRecord) :=
  db.dnsRecords.entries.mergeSort fun e e' => engine.le e.1 e'.1

def queryRecords (readError : Option String) (name : Option String)
    (recordType : Option DNSRecordType) (limit offset : Int32) :
    Except AppError (List DNSRecord) :=
  match readError with
  | some message => .error (.database message)
  | none =>
      if limit < 0 then .error (.database (engine.invalidLimit limit))
      else if offset < 0 then .error (.database (engine.invalidStart offset))
      else
        .ok ((Paging.page ((db.scan engine).filter fun e => selects name recordType e.2)
          limit.toNatClampNeg offset.toNatClampNeg).map Sigma.snd)

/-- The number of selected rows that are scanned before the identifier. -/
def earlier (name : Option String) (recordType : Option DNSRecordType) (id : String) : ℕ :=
  db.dnsRecords.countRows fun id' r => selects name recordType r && (engine.le id' id && id' ≠ id)

def countSelected (name : Option String) (recordType : Option DNSRecordType) : ℕ :=
  db.dnsRecords.countRows fun _ r => selects name recordType r

/-- Every row is stored under its own identifier. -/
def Keyed (db : Database) : Prop := ∀ id r, db.dnsRecords.get id = some r → r.id = id

variable {db engine}

theorem queryRecords_ok_iff {readError name : Option String} {recordType : Option DNSRecordType}
    {limit offset : Int32} {rows : List DNSRecord} :
    db.queryRecords engine readError name recordType limit offset = .ok rows ↔
      readError = none ∧ 0 ≤ limit ∧ 0 ≤ offset ∧
        rows = (Paging.page ((db.scan engine).filter fun e => selects name recordType e.2)
          limit.toNatClampNeg offset.toNatClampNeg).map Sigma.snd := by
  cases readError with
  | some message => simp [queryRecords]
  | none =>
      simp only [queryRecords]
      split_ifs with hlimit hoffset
      · simp [Int32.not_le.mpr hlimit]
      · simp [Int32.not_le.mpr hoffset]
      · simp [Int32.not_lt.mp hlimit, Int32.not_lt.mp hoffset, eq_comm]

theorem mem_scan_iff {id : String} {r : DNSRecord} :
    (⟨id, r⟩ : Σ _ : String, DNSRecord) ∈ db.scan engine ↔ db.dnsRecords.get id = some r := by
  rw [scan, List.mem_mergeSort, KeyedMap.mem_entries_iff]

/-- The strict order of the scan. -/
def scannedBefore (engine : SelectEngine) (e e' : Σ _ : String, DNSRecord) : Bool :=
  engine.le e.1 e'.1 && e.1 ≠ e'.1

theorem scannedBefore_asymm (e e' : Σ _ : String, DNSRecord)
    (h : scannedBefore engine e e' = true) : scannedBefore engine e' e = false := by
  simp only [scannedBefore, Bool.and_eq_true, decide_eq_true_eq] at h
  obtain ⟨hle, hne⟩ := h
  rw [← Bool.not_eq_true]
  simp only [scannedBefore, Bool.and_eq_true, decide_eq_true_eq]
  rintro ⟨hle', _⟩
  exact hne (engine.order.antisymm _ _ hle hle')

theorem scan_pairwise : (db.scan engine).Pairwise fun e e' => scannedBefore engine e e' = true := by
  have hsorted : (db.scan engine).Pairwise fun e e' => engine.le e.1 e'.1 = true :=
    List.pairwise_mergeSort (fun e e' e'' => engine.order.trans e.1 e'.1 e''.1)
      (fun e e' => Bool.or_eq_true_iff.mpr (engine.order.total e.1 e'.1)) _
  have hnodup : ((db.scan engine).map Sigma.fst).Nodup :=
    ((List.mergeSort_perm _ _).map Sigma.fst).nodup_iff.mpr db.dnsRecords.nodupKeys
  have hkeys : (db.scan engine).Pairwise fun e e' => e.1 ≠ e'.1 := List.pairwise_map.mp hnodup
  refine (hsorted.and hkeys).imp ?_
  rintro e e' ⟨hle, hne⟩
  simp [scannedBefore, hle, hne]

theorem before_scan_eq (name : Option String) (recordType : Option DNSRecordType) (id : String)
    (r : DNSRecord) :
    Paging.before (scannedBefore engine)
        ((db.scan engine).filter fun e => selects name recordType e.2) ⟨id, r⟩ =
      db.earlier engine name recordType id := by
  rw [Paging.before, List.countP_filter, scan, (List.mergeSort_perm _ _).countP_eq]
  apply List.countP_congr
  rintro e _
  simp [scannedBefore, and_comm]

theorem length_scan_filter (name : Option String) (recordType : Option DNSRecordType) :
    ((db.scan engine).filter fun e => selects name recordType e.2).length =
      db.countSelected name recordType := by
  rw [← List.countP_eq_length_filter, scan, (List.mergeSort_perm _ _).countP_eq]
  rfl

theorem earlier_lt {name : Option String} {recordType : Option DNSRecordType} {id : String}
    {r : DNSRecord} (hget : db.dnsRecords.get id = some r)
    (hselects : selects name recordType r = true) :
    db.earlier engine name recordType id < db.countSelected name recordType := by
  have hmem : (⟨id, r⟩ : Σ _ : String, DNSRecord) ∈
      (db.scan engine).filter fun e => selects name recordType e.2 :=
    List.mem_filter.mpr ⟨mem_scan_iff.mpr hget, hselects⟩
  have hplace := (Paging.getElem?_eq_some_iff_before scannedBefore_asymm
    (scan_pairwise.sublist List.filter_sublist)).mpr ⟨hmem, rfl⟩
  rw [← before_scan_eq name recordType id r, ← @length_scan_filter db engine]
  exact (List.getElem?_eq_some_iff.mp hplace).1

theorem earlier_mono {db' : Database} {name : Option String} {recordType : Option DNSRecordType}
    (h : ∀ id r, db.dnsRecords.get id = some r → selects name recordType r = true →
      ∃ r', db'.dnsRecords.get id = some r' ∧ selects name recordType r' = true) (id : String) :
    db.earlier engine name recordType id ≤ db'.earlier engine name recordType id := by
  apply KeyedMap.countRows_mono
  intro id' r hget hp
  obtain ⟨hselects, hbefore⟩ := Bool.and_eq_true_iff.mp hp
  obtain ⟨r', hget', hselects'⟩ := h id' r hget hselects
  exact ⟨r', hget', Bool.and_eq_true_iff.mpr ⟨hselects', hbefore⟩⟩

/-- What is on the page. -/
theorem mem_queryRecords_iff (hkeyed : db.Keyed) {name : Option String}
    {recordType : Option DNSRecordType} {limit offset : Int32} {rows : List DNSRecord}
    (h : db.queryRecords engine none name recordType limit offset = .ok rows) {r : DNSRecord} :
    r ∈ rows ↔ db.dnsRecords.get r.id = some r ∧ selects name recordType r = true ∧
      offset.toNatClampNeg ≤ db.earlier engine name recordType r.id ∧
        db.earlier engine name recordType r.id < offset.toNatClampNeg + limit.toNatClampNeg := by
  obtain ⟨_, _, _, rfl⟩ := queryRecords_ok_iff.mp h
  have hentry : ∀ id, (⟨id, r⟩ : Σ _ : String, DNSRecord) ∈
      Paging.page ((db.scan engine).filter fun e => selects name recordType e.2)
        limit.toNatClampNeg offset.toNatClampNeg ↔
      (db.dnsRecords.get id = some r ∧ selects name recordType r = true) ∧
        offset.toNatClampNeg ≤ db.earlier engine name recordType id ∧
          db.earlier engine name recordType id <
            offset.toNatClampNeg + limit.toNatClampNeg := by
    intro id
    rw [Paging.mem_page_iff scannedBefore_asymm (scan_pairwise.sublist List.filter_sublist),
      before_scan_eq, List.mem_filter, mem_scan_iff]
  constructor
  · intro hr
    obtain ⟨⟨id, r⟩, he, rfl⟩ := List.mem_map.mp hr
    obtain ⟨⟨hget, hselects⟩, hbounds⟩ := (hentry id).mp he
    obtain rfl := hkeyed id r hget
    exact ⟨hget, hselects, hbounds⟩
  · rintro ⟨hget, hselects, hbounds⟩
    exact List.mem_map.mpr ⟨⟨r.id, r⟩, (hentry r.id).mpr ⟨⟨hget, hselects⟩, hbounds⟩, rfl⟩

end Database

namespace AppState

variable (s : AppState) (engine : SelectEngine)

/-- The `dns_records` query. -/
def dnsRecords (readError : Option String) (name : Option String)
    (recordType : Option DNSRecordType) (limit offset : Option Int32) :
    Except AppError (List DNSRecord) :=
  s.db.queryRecords engine readError name recordType (limit.getD 100) (offset.getD 0)

theorem keyed_after (hashing : Hashing) (hkeyed : s.db.Keyed) (calls : List Call) :
    (s.after hashing calls).db.Keyed := by
  apply Machine.invariant_final (I := fun s : AppState => s.db.Keyed) _ hkeyed
  intro call _ s hs id r hget
  rcases s.perform_row_cases hashing hget with
    hold | ⟨input, _, _, _, _, rfl⟩ | ⟨input, old, _, hold, _, rfl⟩
  · exact hs id r hold
  · rfl
  · exact hs id old hold

end AppState

end CivicConnect.GraphqlDns
