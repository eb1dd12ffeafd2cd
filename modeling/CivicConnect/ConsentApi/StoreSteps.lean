import CivicConnect.ConsentApi.Rows
import CivicConnect.Library.Machine

/-!
# Interleaved stores and revocations

Storing preferences takes three steps: the row of the identity is read, the
hash is computed, and the row that was read is updated or a new one is made.
Revoking is one step. Other requests may run in between, and an update of a row
that is gone answers without a record.
-/

namespace CivicConnect.ConsentApi

open Json

/-- The answer to a request. The record of a stored preference is missing where
the update found no row, and the body is then empty. -/
inductive Answer where
  | stored (record : Option ConsentRecord)
  | revoked (identity : String)
  | failure (status : ℕ) (error : String)
  deriving DecidableEq, Repr

def Answer.status : Answer → ℕ
  | stored _ => 201
  | revoked _ => 200
  | failure status _ => status

/-- A request is named after the step that it runs next. -/
inductive Task where
  | post (body : Except String JsonValue)
  | selected (prefs : ConsentPreferences) (existing : Option ConsentRecord)
  | hashed (prefs : ConsentPreferences) (existing : Option ConsentRecord) (hash : String)
  | delete (identity : String)
  | answered (answer : Answer)

structure Turn where
  task : ℕ
  environment : Environment

structure World where
  rows : Rows
  tasks : List Task

/-- The branch of `handler` for `POST /consent` up to the query for the row. -/
def receive (rows : Rows) (env : Environment) (body : Except String JsonValue) : Task :=
  match body with
  | .error message => .answered (.failure 500 message)
  | .ok .null =>
      .answered (.failure 500 "Cannot read properties of null (reading 'identity')")
  | .ok body =>
      let prefs := ConsentPreferences.ofBody body
      if prefs.complete then
        let prefs := prefs.withDefaults env.isoNow
        match env.selectError with
        | some message => .answered (.failure 500 message)
        | none => .selected prefs (rows.selectFor prefs).head?
      else .answered (.failure 400 "Missing required fields: identity, telemetry, indexing")

/-- What one step makes of the rows and of the task that runs it. -/
def Task.run (platform : Platform) (rows : Rows) (env : Environment) : Task → Rows × Task
  | .post body => (rows, receive rows env body)
  | .selected prefs existing =>
      match prefs.hashInput platform.numberText with
      | none => (rows, .answered (.failure 500 Table.noPrimitiveValue))
      | some hashInput => (rows, .hashed prefs existing (platform.sha256Hex hashInput))
  | .hashed prefs existing hash =>
      match rows.write platform env prefs existing hash with
      | (rows, .ok record) => (rows, .answered (.stored record))
      | (rows, .error message) => (rows, .answered (.failure 500 message))
  | .delete identity =>
      match env.writeError with
      | some message => (rows, .answered (.failure 500 message))
      | none => (rows.delete identity, .answered (.revoked identity))
  | .answered answer => (rows, .answered answer)

inductive StoreRequest where
  | post (body : Except String JsonValue)
  | delete (identity : String)

def StoreRequest.task : StoreRequest → Task
  | post body => .post body
  | delete identity => .delete identity

namespace World

def start (rows : Rows) (requests : List StoreRequest) : World :=
  ⟨rows, requests.map StoreRequest.task⟩

/-- One step of one request, and the request as it is afterwards. -/
def step (platform : Platform) (w : World) (turn : Turn) : World × Option Task :=
  match w.tasks[turn.task]? with
  | none => (w, none)
  | some task =>
      let (rows, next) := task.run platform w.rows turn.environment
      (⟨rows, w.tasks.set turn.task next⟩, some next)

end World

/-- What is known of a request between its steps: the row that it read is one
of its identity, and the hash is that of its preferences. -/
def Task.Sound (platform : Platform) : Task → Prop
  | .selected prefs existing =>
      ∀ record ∈ existing, asString prefs.identity = some record.identity
  | .hashed prefs existing hash =>
      (∀ record ∈ existing, asString prefs.identity = some record.identity) ∧
        ∃ hashInput, prefs.hashInput platform.numberText = some hashInput ∧
          hash = platform.sha256Hex hashInput
  | _ => True

structure World.Valid (platform : Platform) (w : World) : Prop where
  unique : w.rows.Unique
  sound : ∀ task ∈ w.tasks, task.Sound platform

variable {platform : Platform} {rows rows' : Rows} {env : Environment}
  {prefs : ConsentPreferences} {record row : ConsentRecord} {hash recordId : String}

theorem sound_receive (platform : Platform) (rows : Rows) (env : Environment)
    (body : Except String JsonValue) : (receive rows env body).Sound platform := by
  unfold receive
  split
  · trivial
  · trivial
  · dsimp only
    split
    · cases env.selectError with
      | some message => trivial
      | none => exact fun record hrecord => (Rows.mem_selectFor (List.mem_of_mem_head? hrecord)).1
    · trivial

/-- One step keeps the index unique, and its request in order. -/
theorem Task.run_spec (env : Environment) {task : Task} (hunique : rows.Unique)
    (hsound : task.Sound platform) :
    (task.run platform rows env).1.Unique ∧ (task.run platform rows env).2.Sound platform := by
  cases task with
  | post body => exact ⟨hunique, sound_receive platform rows env body⟩
  | selected prefs existing =>
      rw [Task.run]
      cases hinput : prefs.hashInput platform.numberText with
      | none => exact ⟨hunique, trivial⟩
      | some hashInput => exact ⟨hunique, hsound, hashInput, hinput, rfl⟩
  | hashed prefs existing hash =>
      have hwrite : (rows.write platform env prefs existing hash).1.Unique := by
        cases existing with
        | some record => exact hunique.updateRecord
        | none => exact hunique.createRecord
      rw [Task.run]
      rcases hresult : rows.write platform env prefs existing hash with
        ⟨rows', message | written⟩ <;> rw [hresult] at hwrite
      · exact ⟨hwrite, trivial⟩
      · exact ⟨hwrite, trivial⟩
  | delete identity =>
      rw [Task.run]
      cases env.writeError with
      | some message => exact ⟨hunique, trivial⟩
      | none => exact ⟨hunique.delete identity, trivial⟩
  | answered answer => exact ⟨hunique, trivial⟩

namespace World

variable {w : World} {turn : Turn}

theorem valid_start (hunique : rows.Unique) (requests : List StoreRequest) :
    (start rows requests).Valid platform where
  unique := hunique
  sound task htask := by
    obtain ⟨request, _, rfl⟩ := List.mem_map.mp htask
    cases request <;> trivial

theorem Valid.step (h : w.Valid platform) (turn : Turn) :
    (w.step platform turn).1.Valid platform := by
  rw [World.step]
  cases htask : w.tasks[turn.task]? with
  | none => exact h
  | some task =>
      obtain ⟨hunique, hsound⟩ :=
        Task.run_spec turn.environment h.unique (h.sound task (List.mem_of_getElem? htask))
      constructor
      · exact hunique
      · intro other hother
        rcases List.mem_or_eq_of_mem_set hother with hmem | rfl
        · exact h.sound other hmem
        · exact hsound

theorem step_hashed {existing : Option ConsentRecord} {written : Option ConsentRecord}
    (htask : w.tasks[turn.task]? = some (.hashed prefs existing hash)) :
    (w.step platform turn).2 = some (.answered (.stored written)) ↔
      (w.rows.write platform turn.environment prefs existing hash).2 = .ok written := by
  rw [step, htask]
  simp only [Task.run]
  rcases w.rows.write platform turn.environment prefs existing hash with ⟨rows', message | record⟩
  · simp
  · simp

theorem rows_step_hashed {existing : Option ConsentRecord}
    (htask : w.tasks[turn.task]? = some (.hashed prefs existing hash)) :
    (w.step platform turn).1.rows =
      (w.rows.write platform turn.environment prefs existing hash).1 := by
  rw [step, htask]
  simp only [Task.run]
  rcases w.rows.write platform turn.environment prefs existing hash with ⟨rows', message | record⟩
  · rfl
  · rfl

/-- A write that is answered with 201 leaves exactly one row of its identity,
which keeps its preferences. -/
def Acknowledges (platform : Platform) (w : World) (turn : Turn) : Prop :=
  ∀ prefs existing hash written, w.tasks[turn.task]? = some (.hashed prefs existing hash) →
    (w.step platform turn).2 = some (.answered (.stored written)) →
      (w.step platform turn).1.rows.Carries platform prefs

/-- An update finds the row that its request read, unless it fails anyway or
the identity has a row with the same preferences already. -/
def FindsRow (platform : Platform) (w : World) (turn : Turn) : Prop :=
  ∀ prefs record hash, w.tasks[turn.task]? = some (.hashed prefs (some record) hash) →
    turn.environment.writeError = none →
      (∃ row, w.rows.get record.id = some row ∧
        (row.identity = record.identity ∨ prefs.checkSchema platform.datetime = none)) ∨
      w.rows.Carries platform prefs

theorem Acknowledges.findsRow (h : w.Valid platform) (hack : w.Acknowledges platform turn) :
    w.FindsRow platform turn := by
  intro prefs record hash htask hwrite
  obtain ⟨hread, hashInput, hinput, rfl⟩ := h.sound _ (List.mem_of_getElem? htask)
  have hafter := fun written hok => hack prefs (some record) _ written htask
    ((step_hashed htask).mpr hok)
  rw [rows_step_hashed htask] at hafter
  simp only [Rows.write] at hafter
  cases hget : w.rows.get record.id with
  | none =>
      right
      simpa [Rows.updateRecord, hget, hwrite] using hafter none
  | some row =>
      cases hschema : prefs.checkSchema platform.datetime with
      | none => exact .inl ⟨row, rfl, .inr rfl⟩
      | some p =>
          have hsame : record.identity = p.identity := Option.some.inj
            ((hread record rfl).symm.trans (ConsentPreferences.checkSchema_identity hschema))
          simp only [Rows.updateRecord, hget, hschema, hwrite, Except.ok.injEq,
            forall_eq', Rows.carries_update_iff h.unique hget hschema hinput] at hafter
          rcases hafter with hidentity | hcarries
          · exact .inl ⟨row, rfl, .inl (hidentity.trans hsame.symm)⟩
          · exact .inr hcarries

/-- Whether the row is created, updated or already there, the identity has one
row with the preferences. -/
theorem FindsRow.acknowledges (h : w.Valid platform) (hfind : w.FindsRow platform turn) :
    w.Acknowledges platform turn := by
  intro prefs existing hash written htask hstored
  obtain ⟨hread, hashInput, hinput, rfl⟩ := h.sound _ (List.mem_of_getElem? htask)
  rw [step_hashed htask] at hstored
  rw [rows_step_hashed htask]
  rcases hresult : w.rows.write platform turn.environment prefs existing
    (platform.sha256Hex hashInput) with ⟨rows', message | written'⟩
  · simp [hresult] at hstored
  · cases existing with
    | none => exact Rows.carries_create h.unique hinput hresult
    | some record =>
        obtain ⟨hwrite, ⟨hnone, rfl⟩ | ⟨row, p, hget, hschema, rfl⟩⟩ :=
          Rows.updateRecord_ok hresult
        · rcases hfind prefs record _ htask hwrite with ⟨row, hget, _⟩ | hcarries
          · cases hnone.symm.trans hget
          · exact hcarries
        · rw [Rows.carries_update_iff h.unique hget hschema hinput]
          rcases hfind prefs record _ htask hwrite with ⟨row', hget', hrow⟩ | hcarries
          · obtain rfl := Option.some.inj (hget.symm.trans hget')
            rcases hrow with hidentity | hrefused
            · left
              have hread := hread record rfl
              rw [ConsentPreferences.checkSchema_identity hschema] at hread
              exact hidentity.trans (Option.some.inj hread).symm
            · cases hschema.symm.trans hrefused
          · exact .inr hcarries

theorem acknowledges_iff (h : w.Valid platform) :
    w.Acknowledges platform turn ↔ w.FindsRow platform turn :=
  ⟨Acknowledges.findsRow h, FindsRow.acknowledges h⟩

theorem valid_final (hunique : rows.Unique) (requests : List StoreRequest) (turns : List Turn) :
    (Machine.final (step platform) (start rows requests) turns).Valid platform :=
  Machine.invariant_final (fun turn _ _ h => h.step turn) (valid_start hunique requests)

/-- No identity ever has two rows, and every acknowledged preference is stored
exactly where every update finds the row that its request read. -/
theorem acknowledged_iff_finds_row (platform : Platform) (hunique : rows.Unique)
    (requests : List StoreRequest) (turns : List Turn) :
    (∀ pre post, turns = pre ++ post → ∀ identity,
      ((Machine.final (step platform) (start rows requests) pre).rows.select identity).length ≤
        1) ∧
    ((∀ pre turn post, turns = pre ++ turn :: post →
        (Machine.final (step platform) (start rows requests) pre).Acknowledges platform turn) ↔
      ∀ pre turn post, turns = pre ++ turn :: post →
        (Machine.final (step platform) (start rows requests) pre).FindsRow platform turn) := by
  have hvalid : ∀ pre, (Machine.final (step platform) (start rows requests) pre).Valid platform :=
    valid_final hunique requests
  constructor
  · intro pre post _ identity
    exact (hvalid pre).unique.length_select_le_one identity
  · constructor
    · intro hack pre turn post hturns
      exact (acknowledges_iff (hvalid pre)).mp (hack pre turn post hturns)
    · intro hfind pre turn post hturns
      exact (acknowledges_iff (hvalid pre)).mpr (hfind pre turn post hturns)

end World

def sampleStep (task : ℕ) : Turn :=
  ⟨task, ⟨"2026-01-01T00:00:00.000Z", "2026-01-01T00:00:00Z", "consent:1", none, none, "no"⟩⟩

def sampleBody (telemetry : String) : JsonValue :=
  .object [("identity", .string "me"), ("telemetry", .string telemetry),
    ("indexing", .string "on"), ("source", .string "wordpress://example.com")]

/-- The preferences are stored, another request reads the row, and the row is
deleted before that request updates it. -/
def sampleRequests : List StoreRequest :=
  [.post (.ok (sampleBody "on")), .post (.ok (sampleBody "off")), .delete "me"]

def sampleTurns : List Turn :=
  [sampleStep 0, sampleStep 0, sampleStep 0, sampleStep 1, sampleStep 1, sampleStep 2]

namespace World

theorem unique_empty : Rows.Unique ∅ := by
  intro id id' record record' hget
  cases hget

theorem acknowledged_iff_finds_row_alone :
    Rows.Unique ∅ ∧ ∀ pre turn post,
      [sampleStep 0, sampleStep 0, sampleStep 0] = pre ++ turn :: post →
      (Machine.final (step default) (start ∅ [.post (.ok (sampleBody "on"))]) pre).Acknowledges
        default turn := by
  refine ⟨unique_empty, ?_⟩
  apply (acknowledged_iff_finds_row default unique_empty _ _).2.mpr
  intro pre turn post hturns prefs record hash htask
  -- The request found no row, so it never updates one.
  rcases pre with _ | ⟨first, _ | ⟨second, _ | ⟨third, pre⟩⟩⟩
  · obtain ⟨rfl, _⟩ := List.cons.inj hturns
    cases htask
  · obtain ⟨rfl, hrest⟩ := List.cons.inj hturns
    obtain ⟨rfl, _⟩ := List.cons.inj hrest
    cases htask
  · simp only [List.cons_append, List.nil_append, List.cons.injEq] at hturns
    obtain ⟨rfl, rfl, rfl, _⟩ := hturns
    cases htask
  · simp at hturns

/-- The second request is answered with 201 although nothing is stored. -/
theorem acknowledged_not_stored :
    ¬ ∀ pre turn post, sampleTurns ++ [sampleStep 1] = pre ++ turn :: post →
      (Machine.final (step default) (start ∅ sampleRequests) pre).Acknowledges default turn := by
  intro hstored
  obtain ⟨record, _, hselect⟩ := hstored sampleTurns (sampleStep 1) [] rfl _ _ _ none rfl rfl
  cases hselect

end World

end CivicConnect.ConsentApi
