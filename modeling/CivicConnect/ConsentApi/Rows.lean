import CivicConnect.ConsentApi.Handler

/-!
# The rows of the consent table

The queries of the store on rows with identifiers and a unique index on the
identity. An update of a row that is gone changes nothing and returns nothing.
-/

namespace CivicConnect.ConsentApi

open Json

/-- The row after the `SET` clause of the update, which leaves the identity alone. -/
def ConsentRecord.overwrite (row : ConsentRecord) (env : Environment) (p : AdmittedPreferences)
    (hash : String) : ConsentRecord where
  toAdmittedPreferences := { p with identity := row.identity }
  id := row.id
  createdAt := env.databaseTime
  updatedAt := env.databaseTime
  version := row.version + 1
  contentHash := some hash

/-- The row that `create` makes; the schema sets both times. -/
def ConsentRecord.create (env : Environment) (p : AdmittedPreferences) (hash : String) :
    ConsentRecord where
  toAdmittedPreferences := p
  id := env.rowId
  createdAt := env.databaseTime
  updatedAt := env.databaseTime
  version := 1
  contentHash := some hash

/-- The consent table with its record identifiers. -/
abbrev Rows := KeyedMap String ConsentRecord

namespace Rows

/-- `SELECT * FROM consent WHERE identity = $identity`. -/
def select (rows : Rows) (identity : String) : List ConsentRecord :=
  rows.valuesWhere fun record => record.identity = identity

/-- The rows that are read for the preferences of a request, whose identity may
be any value. -/
def selectFor (rows : Rows) (prefs : ConsentPreferences) : List ConsentRecord :=
  match asString prefs.identity with
  | some identity => rows.select identity
  | none => []

/-- `UPDATE type::thing("consent", $recordId) SET …`; where there is no such
record, nothing is written and no row comes back. -/
def updateRecord (rows : Rows) (platform : Platform) (env : Environment)
    (prefs : ConsentPreferences) (hash recordId : String) :
    Rows × Except String (Option ConsentRecord) :=
  match rows.get recordId with
  | none =>
      match env.writeError with
      | some message => (rows, .error message)
      | none => (rows, .ok none)
  | some row =>
      match prefs.checkSchema platform.datetime with
      | none => (rows, .error env.schemaError)
      | some admitted =>
          match env.writeError with
          | some message => (rows, .error message)
          | none =>
              let record := row.overwrite env admitted hash
              (rows.set recordId record, .ok (some record))

/-- `db.create("consent", …)`, which the unique index refuses for an identity
that has a row. -/
def createRecord (rows : Rows) (platform : Platform) (env : Environment)
    (prefs : ConsentPreferences) (hash : String) :
    Rows × Except String (Option ConsentRecord) :=
  match prefs.checkSchema platform.datetime with
  | none => (rows, .error env.schemaError)
  | some admitted =>
      match env.writeError with
      | some message => (rows, .error message)
      | none =>
          if (rows.get env.rowId).isSome ∨ rows.select admitted.identity ≠ [] then
            (rows, .error env.schemaError)
          else
            let record := ConsentRecord.create env admitted hash
            (rows.set env.rowId record, .ok (some record))

/-- `DELETE FROM consent WHERE identity = $identity`. -/
def delete (rows : Rows) (identity : String) : Rows :=
  rows.retain fun _ record => record.identity ≠ identity

/-- No identity has two rows. -/
def Unique (rows : Rows) : Prop :=
  ∀ id id' record record', rows.get id = some record → rows.get id' = some record' →
    record.identity = record'.identity → id = id'

end Rows

def Rows.write (rows : Rows) (platform : Platform) (env : Environment)
    (prefs : ConsentPreferences) (existing : Option ConsentRecord) (hash : String) :
    Rows × Except String (Option ConsentRecord) :=
  match existing with
  | some record => rows.updateRecord platform env prefs hash record.id
  | none => rows.createRecord platform env prefs hash

/-- The record has the values of the preferences and the digest of their hash
input. -/
def ConsentRecord.Keeps (record : ConsentRecord) (platform : Platform)
    (prefs : ConsentPreferences) : Prop :=
  ∃ p hashInput, prefs.checkSchema platform.datetime = some p ∧
    prefs.hashInput platform.numberText = some hashInput ∧ record.identity = p.identity ∧
      record.telemetry = p.telemetry ∧ record.indexing = p.indexing ∧
        record.webmentions = p.webmentions ∧ record.dnsOperations = p.dnsOperations ∧
          record.timestamp = p.timestamp ∧
            record.contentHash = some (platform.sha256Hex hashInput)

/-- The identity has exactly one row, and it keeps the preferences. -/
def Rows.Carries (rows : Rows) (platform : Platform) (prefs : ConsentPreferences) : Prop :=
  ∃ record, record.Keeps platform prefs ∧ rows.select record.identity = [record]

variable {platform : Platform} {rows rows' : Rows} {env : Environment}
  {prefs : ConsentPreferences} {record row : ConsentRecord} {hash recordId : String}

namespace Rows

theorem mem_select {identity : String} :
    record ∈ rows.select identity ↔
      (∃ id, rows.get id = some record) ∧ record.identity = identity := by
  rw [select, KeyedMap.mem_valuesWhere, decide_eq_true_iff]

theorem select_eq_nil_iff {identity : String} : rows.select identity = [] ↔
    ∀ id record, rows.get id = some record → record.identity ≠ identity := by
  rw [List.eq_nil_iff_forall_not_mem]
  constructor
  · intro h id record hget hidentity
    exact h record (mem_select.mpr ⟨⟨id, hget⟩, hidentity⟩)
  · intro h record hmem
    obtain ⟨⟨id, hget⟩, hidentity⟩ := mem_select.mp hmem
    exact h id record hget hidentity

theorem Unique.length_select_le_one (h : rows.Unique) (identity : String) :
    (rows.select identity).length ≤ 1 := by
  apply KeyedMap.length_valuesWhere_le_one
  intro id id' record record' hget hget' hidentity hidentity'
  apply h id id' record record' hget hget'
  rw [of_decide_eq_true hidentity, of_decide_eq_true hidentity']

theorem Unique.carries_iff (h : rows.Unique) : rows.Carries platform prefs ↔
    ∃ id record, rows.get id = some record ∧ record.Keeps platform prefs := by
  have hone : ∀ record : ConsentRecord, rows.select record.identity = [record] ↔
      ∃ id, rows.get id = some record := by
    intro record
    rw [select, KeyedMap.valuesWhere_eq_singleton_iff _ _ _ (h.length_select_le_one _)]
    simp
  rw [Carries]
  constructor
  · rintro ⟨record, hkeeps, hselect⟩
    obtain ⟨id, hget⟩ := (hone record).mp hselect
    exact ⟨id, record, hget, hkeeps⟩
  · rintro ⟨id, record, hget, hkeeps⟩
    exact ⟨record, hkeeps, (hone record).mpr ⟨id, hget⟩⟩

theorem Unique.delete (h : rows.Unique) (identity : String) : (rows.delete identity).Unique := by
  intro id id' record record' hget hget' hsame
  rw [Rows.delete, KeyedMap.get_retain, Option.filter_eq_some_iff] at hget hget'
  exact h id id' record record' hget.1 hget'.1 hsame

/-- A write keeps the index unique when no other row has its identity. -/
theorem Unique.set (h : rows.Unique)
    (hfree : ∀ id row, rows.get id = some row → row.identity = record.identity → id = recordId) :
    Unique (KeyedMap.set rows recordId record) := by
  intro id id' first second hfirst hsecond hsame
  rw [KeyedMap.get_set] at hfirst hsecond
  split_ifs at hfirst with hid <;> split_ifs at hsecond with hid'
  · rw [hid, hid']
  · obtain rfl := Option.some.inj hfirst
    rw [hid, hfree id' second hsecond hsame.symm]
  · obtain rfl := Option.some.inj hsecond
    rw [hid', hfree id first hfirst hsame]
  · exact h id id' first second hfirst hsecond hsame

theorem updateRecord_ok {written : Option ConsentRecord}
    (h : rows.updateRecord platform env prefs hash recordId = (rows', .ok written)) :
    env.writeError = none ∧
      (rows.get recordId = none ∧ rows' = rows ∨
        ∃ row p, rows.get recordId = some row ∧ prefs.checkSchema platform.datetime = some p ∧
          rows' = KeyedMap.set rows recordId (row.overwrite env p hash)) := by
  rw [updateRecord] at h
  cases hget : rows.get recordId with
  | none =>
      cases hwrite : env.writeError with
      | some message => simp [hget, hwrite] at h
      | none =>
          simp only [hget, hwrite, Prod.mk.injEq] at h
          exact ⟨rfl, .inl ⟨rfl, h.1.symm⟩⟩
  | some row =>
      cases hschema : prefs.checkSchema platform.datetime with
      | none => simp [hget, hschema] at h
      | some p =>
          cases hwrite : env.writeError with
          | some message => simp [hget, hschema, hwrite] at h
          | none =>
              simp only [hget, hschema, hwrite, Prod.mk.injEq] at h
              exact ⟨rfl, .inr ⟨row, p, rfl, rfl, h.1.symm⟩⟩

theorem updateRecord_error {message : String}
    (h : rows.updateRecord platform env prefs hash recordId = (rows', .error message)) :
    rows' = rows := by
  rw [updateRecord] at h
  grind

theorem createRecord_ok {written : Option ConsentRecord}
    (h : rows.createRecord platform env prefs hash = (rows', .ok written)) :
    ∃ p, prefs.checkSchema platform.datetime = some p ∧ rows.get env.rowId = none ∧
      rows.select p.identity = [] ∧
        rows' = KeyedMap.set rows env.rowId (ConsentRecord.create env p hash) := by
  rw [createRecord] at h
  cases hschema : prefs.checkSchema platform.datetime with
  | none => simp [hschema] at h
  | some p =>
      cases hwrite : env.writeError with
      | some message => simp [hschema, hwrite] at h
      | none =>
          simp only [hschema, hwrite] at h
          split_ifs at h with hrefused
          · simp at h
          · rw [not_or, not_not, Option.not_isSome_iff_eq_none] at hrefused
            exact ⟨p, rfl, hrefused.1, hrefused.2, (Prod.mk.inj h).1.symm⟩

theorem createRecord_error {message : String}
    (h : rows.createRecord platform env prefs hash = (rows', .error message)) :
    rows' = rows := by
  rw [createRecord] at h
  grind

theorem Unique.updateRecord (h : rows.Unique) :
    (rows.updateRecord platform env prefs hash recordId).1.Unique := by
  rcases hwrite : rows.updateRecord platform env prefs hash recordId with
    ⟨rows', message | written⟩
  · rw [updateRecord_error hwrite]
    exact h
  · obtain ⟨_, ⟨_, rfl⟩ | ⟨row, p, hget, _, rfl⟩⟩ := updateRecord_ok hwrite
    · exact h
    · exact h.set fun id row' hget' hsame => h id recordId row' row hget' hget hsame

theorem Unique.createRecord (h : rows.Unique) :
    (rows.createRecord platform env prefs hash).1.Unique := by
  rcases hwrite : rows.createRecord platform env prefs hash with ⟨rows', message | written⟩
  · rw [createRecord_error hwrite]
    exact h
  · obtain ⟨p, _, _, hselect, rfl⟩ := createRecord_ok hwrite
    exact h.set fun id row hget hsame => absurd hsame (select_eq_nil_iff.mp hselect id row hget)

end Rows

theorem ConsentPreferences.checkSchema_identity {datetime : JsonValue → Option String}
    {p : AdmittedPreferences} (h : prefs.checkSchema datetime = some p) :
    asString prefs.identity = some p.identity := by
  simp only [checkSchema, Option.bind_eq_bind, Option.bind_eq_some_iff] at h
  obtain ⟨identity, hidentity, _, _, _, _, _, _, _, _, _, _, _, _, _, _, hp⟩ := h
  split at hp
  · obtain rfl := Option.some.inj hp
    exact hidentity
  · cases hp

/-- A row that was read for the preferences is one of their identity. -/
theorem Rows.mem_selectFor (h : record ∈ rows.selectFor prefs) :
    asString prefs.identity = some record.identity ∧ record ∈ rows.select record.identity := by
  rw [selectFor] at h
  cases hidentity : asString prefs.identity with
  | none => simp [hidentity] at h
  | some identity =>
      simp only [hidentity] at h
      rw [(mem_select.mp h).2]
      exact ⟨rfl, h⟩

theorem keeps_overwrite {p : AdmittedPreferences} {hashInput : String}
    (hschema : prefs.checkSchema platform.datetime = some p)
    (hinput : prefs.hashInput platform.numberText = some hashInput)
    (hidentity : row.identity = p.identity) :
    (row.overwrite env p (platform.sha256Hex hashInput)).Keeps platform prefs :=
  ⟨p, hashInput, hschema, hinput, hidentity, rfl, rfl, rfl, rfl, rfl, rfl⟩

theorem keeps_create {p : AdmittedPreferences} {hashInput : String}
    (hschema : prefs.checkSchema platform.datetime = some p)
    (hinput : prefs.hashInput platform.numberText = some hashInput) :
    (ConsentRecord.create env p (platform.sha256Hex hashInput)).Keeps platform prefs :=
  ⟨p, hashInput, hschema, hinput, rfl, rfl, rfl, rfl, rfl, rfl, rfl⟩

theorem ConsentRecord.Keeps.identity {p : AdmittedPreferences} (h : record.Keeps platform prefs)
    (hschema : prefs.checkSchema platform.datetime = some p) : record.identity = p.identity := by
  obtain ⟨q, _, hq, _, hidentity, _⟩ := h
  obtain rfl := Option.some.inj (hschema.symm.trans hq)
  exact hidentity

namespace Rows

variable {p : AdmittedPreferences} {hashInput : String}

/-- An update makes the table carry the preferences exactly when it hits the
row of their identity, or the table carries them already. -/
theorem carries_update_iff (hunique : rows.Unique) (hget : rows.get recordId = some row)
    (hschema : prefs.checkSchema platform.datetime = some p)
    (hinput : prefs.hashInput platform.numberText = some hashInput) :
    Carries (KeyedMap.set rows recordId (row.overwrite env p (platform.sha256Hex hashInput)))
        platform prefs ↔ row.identity = p.identity ∨ rows.Carries platform prefs := by
  have hafter : Unique
      (KeyedMap.set rows recordId (row.overwrite env p (platform.sha256Hex hashInput))) :=
    hunique.set fun id row' hget' hsame => hunique id recordId row' row hget' hget hsame
  have hhit (hidentity : row.identity = p.identity) : Carries
      (KeyedMap.set rows recordId (row.overwrite env p (platform.sha256Hex hashInput)))
      platform prefs := hafter.carries_iff.mpr
    ⟨recordId, _, KeyedMap.get_set_self _ _ _, keeps_overwrite hschema hinput hidentity⟩
  constructor
  · intro h
    obtain ⟨id, record, hrecord, hkeeps⟩ := hafter.carries_iff.mp h
    rw [KeyedMap.get_set] at hrecord
    split_ifs at hrecord with hid
    · obtain rfl := Option.some.inj hrecord
      exact .inl (hkeeps.identity hschema)
    · exact .inr (hunique.carries_iff.mpr ⟨id, record, hrecord, hkeeps⟩)
  · rintro (hidentity | h)
    · exact hhit hidentity
    · by_cases hidentity : row.identity = p.identity
      · exact hhit hidentity
      · obtain ⟨id, record, hrecord, hkeeps⟩ := hunique.carries_iff.mp h
        have hne : id ≠ recordId := by
          rintro rfl
          obtain rfl := Option.some.inj (hget.symm.trans hrecord)
          exact hidentity (hkeeps.identity hschema)
        exact hafter.carries_iff.mpr
          ⟨id, record, (KeyedMap.get_set_ne _ _ hne).trans hrecord, hkeeps⟩

theorem carries_create {written : Option ConsentRecord} (hunique : rows.Unique)
    (hinput : prefs.hashInput platform.numberText = some hashInput)
    (h : rows.createRecord platform env prefs (platform.sha256Hex hashInput) =
      (rows', .ok written)) : rows'.Carries platform prefs := by
  have hafter : (rows.createRecord platform env prefs (platform.sha256Hex hashInput)).1.Unique :=
    hunique.createRecord
  rw [h] at hafter
  obtain ⟨p, hschema, _, _, rfl⟩ := createRecord_ok h
  exact hafter.carries_iff.mpr
    ⟨env.rowId, _, KeyedMap.get_set_self _ _ _, keeps_create hschema hinput⟩

end Rows

/-- The table keyed by identity that the one-query model of the store keeps. -/
structure Rows.Represents (rows : Rows) (table : Table) : Prop where
  unique : rows.Unique
  keyed : ∀ id record, rows.get id = some record → record.id = id
  get_iff : ∀ identity record, table.get identity = some record ↔
    (∃ id, rows.get id = some record) ∧ record.identity = identity

namespace Rows.Represents

variable {table : Table}

theorem set (h : rows.Represents table) (hid : record.id = recordId)
    (hfree : ∀ id row, rows.get id = some row → row.identity = record.identity → id = recordId)
    (hold : ∀ row, rows.get recordId = some row → row.identity = record.identity) :
    Represents (KeyedMap.set rows recordId record) (KeyedMap.set table record.identity record) where
  unique := h.unique.set hfree
  keyed id row hget := by
    rw [KeyedMap.get_set] at hget
    split_ifs at hget with heq
    · rw [← Option.some.inj hget, hid, heq]
    · exact h.keyed id row hget
  get_iff identity row := by
    rw [KeyedMap.get_set]
    split_ifs with hidentity
    · constructor
      · intro hrow
        obtain rfl := Option.some.inj hrow
        exact ⟨⟨recordId, KeyedMap.get_set_self _ _ _⟩, hidentity.symm⟩
      · rintro ⟨⟨id, hget⟩, hsame⟩
        rw [KeyedMap.get_set] at hget
        split_ifs at hget with heq
        · exact hget
        · exact absurd (hfree id row hget (hsame.trans hidentity)) heq
    · rw [h.get_iff]
      constructor
      · rintro ⟨⟨id, hget⟩, hsame⟩
        have hne : id ≠ recordId := by
          rintro rfl
          exact hidentity (hsame.symm.trans (hold row hget))
        exact ⟨⟨id, (KeyedMap.get_set_ne _ _ hne).trans hget⟩, hsame⟩
      · rintro ⟨⟨id, hget⟩, hsame⟩
        rw [KeyedMap.get_set] at hget
        split_ifs at hget with heq
        · obtain rfl := Option.some.inj hget
          exact absurd hsame.symm hidentity
        · exact ⟨⟨id, hget⟩, hsame⟩

theorem get_eq_none (h : rows.Represents table) {identity : String}
    (hselect : rows.select identity = []) : table.get identity = none := by
  apply Option.eq_none_iff_forall_ne_some.mpr
  intro record hget
  obtain ⟨⟨id, hrow⟩, hidentity⟩ := (h.get_iff identity record).mp hget
  exact select_eq_nil_iff.mp hselect id record hrow hidentity

theorem get_of_mem_select (h : rows.Represents table) {identity : String}
    (hmem : record ∈ rows.select identity) :
    rows.get record.id = some record ∧ table.get identity = some record := by
  obtain ⟨⟨id, hget⟩, hidentity⟩ := mem_select.mp hmem
  rw [h.keyed id record hget]
  exact ⟨hget, (h.get_iff identity record).mpr ⟨⟨id, hget⟩, hidentity⟩⟩

/-- A revocation removes the same rows as in the one-query model. -/
theorem delete (h : rows.Represents table) (identity : String) :
    (rows.delete identity).Represents (table.remove identity) where
  unique := h.unique.delete identity
  keyed id row hget := by
    rw [Rows.delete, KeyedMap.get_retain, Option.filter_eq_some_iff] at hget
    exact h.keyed id row hget.1
  get_iff other row := by
    have hrows : (∃ id, KeyedMap.get (rows.delete identity) id = some row) ↔
        (∃ id, rows.get id = some row) ∧ row.identity ≠ identity := by
      simp only [Rows.delete, KeyedMap.get_retain, Option.filter_eq_some_iff,
        decide_eq_true_eq, exists_and_right]
    rw [hrows]
    by_cases hother : other = identity
    · rw [hother, KeyedMap.get_remove_self]
      constructor
      · intro hnone
        cases hnone
      · intro hrow
        exact absurd hrow.2 hrow.1.2
    · rw [KeyedMap.get_remove_ne table hother, h.get_iff]
      constructor
      · rintro ⟨hrow, hidentity⟩
        exact ⟨⟨hrow, hidentity ▸ hother⟩, hidentity⟩
      · rintro ⟨⟨hrow, _⟩, hidentity⟩
        exact ⟨hrow, hidentity⟩

variable {p : AdmittedPreferences}

/-- A new row of an identity without one. -/
theorem create (h : rows.Represents table) (hfresh : rows.get env.rowId = none)
    (hnil : rows.select p.identity = []) (hash : String) :
    table.written env p hash = ConsentRecord.create env p hash ∧
      Represents (KeyedMap.set rows env.rowId (ConsentRecord.create env p hash))
        (KeyedMap.set table p.identity (ConsentRecord.create env p hash)) := by
  constructor
  · rw [Table.written, h.get_eq_none hnil]
    rfl
  · have hid : (ConsentRecord.create env p hash).id = env.rowId := rfl
    apply h.set hid
    · intro id row hget hsame
      exact absurd hsame (Rows.select_eq_nil_iff.mp hnil id row hget)
    · intro row hget
      cases hfresh.symm.trans hget

/-- The row of an identity with new preferences. -/
theorem overwrite (h : rows.Represents table) (hmem : record ∈ rows.select p.identity)
    (env : Environment) (hash : String) : table.written env p hash = record.overwrite env p hash ∧
      Represents (KeyedMap.set rows record.id (record.overwrite env p hash))
        (KeyedMap.set table p.identity (record.overwrite env p hash)) := by
  obtain ⟨hget, htable⟩ := h.get_of_mem_select hmem
  constructor
  · rw [Table.written, htable]
    rfl
  · have hid : (record.overwrite env p hash).id = record.id := rfl
    rw [← (Rows.mem_select.mp hmem).2]
    apply h.set hid
    · intro id row hrow hsame
      exact h.unique id record.id row record hrow hget hsame
    · intro row hrow
      rw [Option.some.inj (hrow.symm.trans hget)]
      rfl

end Rows.Represents

/-- The steps of a store that runs alone do what the one-query model does. -/
theorem write_eq_storeConsent {table : Table} (h : rows.Represents table)
    (hselect : env.selectError = none) (hfresh : rows.get env.rowId = none) {hashInput : String}
    (hinput : prefs.hashInput platform.numberText = some hashInput) :
    (rows.write platform env prefs (rows.selectFor prefs).head?
        (platform.sha256Hex hashInput)).2 =
      (table.storeConsent platform env prefs).2.map some ∧
    (rows.write platform env prefs (rows.selectFor prefs).head?
      (platform.sha256Hex hashInput)).1.Represents (table.storeConsent platform env prefs).1 := by
  rw [Table.storeConsent, hselect]
  simp only [hinput]
  cases hschema : prefs.checkSchema platform.datetime with
  | none =>
      cases hhead : (rows.selectFor prefs).head? with
      | none => simpa [Rows.write, Rows.createRecord, hschema, Except.map] using h
      | some record =>
          have hmem := (Rows.mem_selectFor (List.mem_of_mem_head? hhead)).2
          simpa [Rows.write, Rows.updateRecord, (h.get_of_mem_select hmem).1, hschema,
            Except.map] using h
  | some p =>
      have hrows : rows.selectFor prefs = rows.select p.identity := by
        rw [Rows.selectFor, ConsentPreferences.checkSchema_identity hschema]
      rw [hrows]
      cases hhead : (rows.select p.identity).head? with
      | none =>
          have hnil := List.head?_eq_none_iff.mp hhead
          cases hwrite : env.writeError with
          | some message =>
              simpa [Rows.write, Rows.createRecord, hschema, hwrite, Except.map] using h
          | none =>
              obtain ⟨hwritten, hcreate⟩ := h.create hfresh hnil (platform.sha256Hex hashInput)
              simpa [Rows.write, Rows.createRecord, hschema, hwrite, hfresh, hnil, hwritten,
                Except.map] using hcreate
      | some record =>
          have hmem := List.mem_of_mem_head? hhead
          have hget := (h.get_of_mem_select hmem).1
          cases hwrite : env.writeError with
          | some message =>
              simpa [Rows.write, Rows.updateRecord, hget, hschema, hwrite, Except.map] using h
          | none =>
              obtain ⟨hwritten, hupdate⟩ := h.overwrite hmem env (platform.sha256Hex hashInput)
              simpa [Rows.write, Rows.updateRecord, hget, hschema, hwrite, hwritten,
                Except.map] using hupdate

end CivicConnect.ConsentApi
