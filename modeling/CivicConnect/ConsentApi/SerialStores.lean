import CivicConnect.ConsentApi.StoreSteps

/-!
# Stores one after another

Requests whose steps do not interleave do what the one-query model of the
handler does: the rows represent its table all along, and the answers are its
responses.
-/

namespace CivicConnect.ConsentApi

open Json

/-- The request to the store, if it is one that writes. -/
def Request.store (platform : Platform) (req : Request) : Option StoreRequest :=
  if req.path = "/consent" ∧ req.method = "POST" then some (.post req.body)
  else if isConsentPath req.path ∧ req.method = "DELETE" then
    (platform.decodeURIComponent (afterConsent req.path)).map .delete
  else none

namespace Task

def response : Task → Option Response
  | answered (.stored (some record)) => some (.stored record)
  | answered (.revoked identity) => some (.revoked identity)
  | answered (.failure status error) => some (.failure status error)
  | _ => none

/-- The steps of a request that has the rows to itself. -/
def steps (platform : Platform) (env : Environment) : ℕ → Rows × Task → Rows × Task
  | 0, s => s
  | n + 1, s => steps platform env n (s.2.run platform s.1 env)

end Task

/-- Three turns for each request, one request after another. -/
def serialTurns : ℕ → List Request → List Turn
  | _, [] => []
  | i, req :: requests =>
      List.replicate 3 ⟨i, req.environment⟩ ++ serialTurns (i + 1) requests

variable {platform : Platform} {rows rows' : Rows} {table : Table} {env : Environment}
  {prefs : ConsentPreferences} {req : Request} {request : StoreRequest}

namespace World

variable {w : World} {task : Task}

theorem final_replicate (i n : ℕ) (htask : w.tasks[i]? = some task) :
    Machine.final (step platform) w (List.replicate n ⟨i, env⟩) =
      ⟨(Task.steps platform env n (w.rows, task)).1,
        w.tasks.set i (Task.steps platform env n (w.rows, task)).2⟩ := by
  obtain ⟨hlt, hget⟩ := List.getElem?_eq_some_iff.mp htask
  induction n generalizing w task with
  | zero =>
      have hset : w.tasks.set i task = w.tasks := by rw [← hget, List.set_getElem_self]
      exact congrArg (World.mk w.rows) hset.symm
  | succ n ih =>
      have hstep : (w.step platform ⟨i, env⟩).1 =
          ⟨(task.run platform w.rows env).1, w.tasks.set i (task.run platform w.rows env).2⟩ := by
        rw [step, htask]
      rw [List.replicate_succ, Machine.final_cons, hstep,
        ih (List.getElem?_set_self hlt) (by simpa using hlt) (List.getElem_set_self _),
        List.set_set]
      rfl

end World

/-- Where no row is, a write makes none but its own. -/
theorem Rows.get_write_eq_none {existing : Option ConsentRecord} {hash id : String}
    (hne : id ≠ env.rowId) (hnone : rows.get id = none) :
    (rows.write platform env prefs existing hash).1.get id = none := by
  cases existing with
  | none =>
      rw [Rows.write, Rows.createRecord]
      cases prefs.checkSchema platform.datetime with
      | none => exact hnone
      | some p =>
          cases env.writeError with
          | some message => exact hnone
          | none =>
              dsimp only
              split
              · exact hnone
              · exact (KeyedMap.get_set_ne _ _ hne).trans hnone
  | some record =>
      rw [Rows.write, Rows.updateRecord]
      cases hget : rows.get record.id with
      | none => cases env.writeError <;> exact hnone
      | some row =>
          have hne' : id ≠ record.id := by
            rintro rfl
            cases hnone.symm.trans hget
          cases prefs.checkSchema platform.datetime with
          | none => exact hnone
          | some p =>
              cases env.writeError with
              | some message => exact hnone
              | none => exact (KeyedMap.get_set_ne _ _ hne').trans hnone

/-- What a request leaves that runs by itself, beside what the handler does. -/
structure Serves (platform : Platform) (rows : Rows) (table : Table) (env : Environment)
    (s : Rows × Task) (served : Table × Response) : Prop where
  represents : s.1.Represents served.1
  response : s.2.response = some served.2
  absent : ∀ id, id ≠ env.rowId → rows.get id = none → s.1.get id = none

/-- A request that is answered without a write. -/
theorem Serves.of_failure (h : rows.Represents table) (status : ℕ) (error : String) :
    Serves platform rows table env (rows, .answered (.failure status error))
      (table, .failure status error) where
  represents := h
  response := rfl
  absent _ _ hnone := hnone

/-- The response to preferences that are stored by one query. -/
def stored : Table × Except String ConsentRecord → Table × Response
  | (table, .ok record) => (table, .stored record)
  | (table, .error message) => (table, .failure 500 message)

/-- From the row that it reads on, a request stores what the one query stores. -/
theorem serves_selected (h : rows.Represents table) (hfresh : rows.get env.rowId = none)
    (hselect : env.selectError = none) :
    Serves platform rows table env
      (Task.steps platform env 2 (rows, .selected prefs (rows.selectFor prefs).head?))
      (stored (table.storeConsent platform env prefs)) := by
  cases hinput : prefs.hashInput platform.numberText with
  | none =>
      have hstore : table.storeConsent platform env prefs =
          (table, .error Table.noPrimitiveValue) := by
        rw [Table.storeConsent, hselect, hinput]
      rw [hstore, Task.steps, Task.run, hinput]
      exact .of_failure h _ _
  | some hashInput =>
      obtain ⟨hresult, hrepresents⟩ := write_eq_storeConsent h hselect hfresh hinput
      have habsent : ∀ id, id ≠ env.rowId → rows.get id = none → (rows.write platform env prefs
          (rows.selectFor prefs).head? (platform.sha256Hex hashInput)).1.get id = none :=
        fun _ => Rows.get_write_eq_none
      rw [Task.steps, Task.run, hinput]
      dsimp only
      rw [Task.steps, Task.run]
      generalize rows.write platform env prefs (rows.selectFor prefs).head?
        (platform.sha256Hex hashInput) = written at hresult hrepresents habsent ⊢
      generalize table.storeConsent platform env prefs = kept at hresult hrepresents ⊢
      obtain ⟨rows', result⟩ := written
      obtain ⟨table', message | record⟩ := kept
      · obtain rfl : result = .error message := hresult
        exact ⟨hrepresents, rfl, habsent⟩
      · obtain rfl : result = .ok (some record) := hresult
        exact ⟨hrepresents, rfl, habsent⟩

theorem receive_of_ne_null {body : JsonValue} (hnull : body ≠ .null) :
    receive rows env (.ok body) =
      if (ConsentPreferences.ofBody body).complete then
        match env.selectError with
        | some message => .answered (.failure 500 message)
        | none => .selected ((ConsentPreferences.ofBody body).withDefaults env.isoNow)
            (rows.selectFor ((ConsentPreferences.ofBody body).withDefaults env.isoNow)).head?
      else .answered (.failure 400 "Missing required fields: identity, telemetry, indexing") := by
  cases body with
  | null => exact absurd rfl hnull
  | bool | number | string | array | object => rfl

theorem postConsent_of_ne_null {body : JsonValue} (hnull : body ≠ .null) (path : String) :
    postConsent platform table ⟨"POST", path, .ok body, env⟩ =
      if (ConsentPreferences.ofBody body).complete then
        stored (table.storeConsent platform env
          ((ConsentPreferences.ofBody body).withDefaults env.isoNow))
      else (table, .failure 400 "Missing required fields: identity, telemetry, indexing") := by
  cases body with
  | null => exact absurd rfl hnull
  | bool | number | string | array | object => rfl

/-- A request that stores does what the handler does. -/
theorem serves_post (h : rows.Represents table) (hfresh : rows.get env.rowId = none)
    (body : Except String JsonValue) (path : String) :
    Serves platform rows table env (Task.steps platform env 3 (rows, .post body))
      (postConsent platform table ⟨"POST", path, body, env⟩) := by
  rw [Task.steps, Task.run]
  cases body with
  | error message => exact .of_failure h 500 message
  | ok body =>
      by_cases hnull : body = .null
      · subst hnull
        exact .of_failure h _ _
      · rw [receive_of_ne_null hnull, postConsent_of_ne_null hnull]
        generalize (ConsentPreferences.ofBody body).withDefaults env.isoNow = prefs
        split
        · cases hselect : env.selectError with
          | some message =>
              have hstore : table.storeConsent platform env prefs = (table, .error message) := by
                rw [Table.storeConsent, hselect]
              rw [hstore]
              exact .of_failure h _ _
          | none => exact serves_selected h hfresh hselect
        · exact .of_failure h _ _

theorem serves_delete (h : rows.Represents table) (identity encoded : String)
    (hdecode : platform.decodeURIComponent encoded = some identity) (hreq : req.environment = env) :
    Serves platform rows table env (Task.steps platform env 3 (rows, .delete identity))
      (deleteConsent platform table req encoded) := by
  subst hreq
  rw [Task.steps, Task.run]
  simp only [deleteConsent, hdecode, Table.revokeConsent]
  cases req.environment.writeError with
  | some message => exact .of_failure h _ _
  | none =>
      refine ⟨h.delete identity, rfl, fun id _ hnone => ?_⟩
      change (rows.delete identity).get id = none
      rw [Rows.delete, KeyedMap.get_retain, hnone]
      rfl

/-- A request that runs by itself does what the handler does. -/
theorem serves_handler (h : rows.Represents table)
    (hfresh : rows.get req.environment.rowId = none) (hstore : req.store platform = some request) :
    Serves platform rows table req.environment
      (Task.steps platform req.environment 3 (rows, request.task))
      (handler platform table req) := by
  obtain ⟨method, path, body, env⟩ := req
  rw [Request.store] at hstore
  dsimp only at hstore hfresh ⊢
  split_ifs at hstore with hpost hdelete
  · obtain rfl := Option.some.inj hstore
    obtain ⟨rfl, rfl⟩ := hpost
    exact serves_post h hfresh body "/consent"
  · obtain ⟨identity, hdecode, rfl⟩ := Option.map_eq_some_iff.mp hstore
    obtain ⟨hpath, rfl⟩ := hdelete
    have hhandler : handler platform table ⟨"DELETE", path, body, env⟩ =
        deleteConsent platform table ⟨"DELETE", path, body, env⟩ (afterConsent path) := by
      simp [handler, hpath]
    rw [hhandler]
    exact serves_delete h identity _ hdecode rfl

namespace World

/-- The turns of a request change the rows and its task as its steps do. -/
theorem final_request (done rest : List Task) (task : Task) :
    Machine.final (step platform) ⟨rows, done ++ task :: rest⟩
        (List.replicate 3 ⟨done.length, env⟩) =
      ⟨(Task.steps platform env 3 (rows, task)).1,
        done ++ [(Task.steps platform env 3 (rows, task)).2] ++ rest⟩ := by
  have htask : (done ++ task :: rest)[done.length]? = some task := by simp
  rw [final_replicate done.length 3 htask]
  simp

/-- Stores and revocations that run one after another are a run of the handler on
the table: the rows represent the table that it leaves, and each request is
answered with its response. -/
theorem serial_stores (h : rows.Represents table) {requests : List Request}
    {stores : List StoreRequest}
    (hstores : requests.map (Request.store platform) = stores.map some)
    (hfresh : (requests.map fun req => req.environment.rowId).Nodup)
    (habsent : ∀ req ∈ requests, rows.get req.environment.rowId = none) :
    let w := Machine.final (step platform) (start rows stores) (serialTurns 0 requests)
    w.rows.Represents (Machine.final (handler platform) table requests) ∧
      w.tasks.map Task.response = (Machine.trace (handler platform) table requests).map some := by
  suffices hserial : ∀ done : List Task,
      let w := Machine.final (step platform) ⟨rows, done ++ stores.map StoreRequest.task⟩
        (serialTurns done.length requests)
      w.rows.Represents (Machine.final (handler platform) table requests) ∧
        w.tasks.map Task.response = done.map Task.response ++
          (Machine.trace (handler platform) table requests).map some from hserial []
  induction requests generalizing rows table stores with
  | nil =>
      obtain rfl : stores = [] := List.map_eq_nil_iff.mp hstores.symm
      intro done
      exact ⟨h, by simp [serialTurns]⟩
  | cons req requests ih =>
      obtain ⟨request, stores, rfl, hstore, hrest⟩ := List.map_eq_cons_iff.mp hstores.symm
      obtain ⟨hnew, hnodup⟩ := List.nodup_cons.mp hfresh
      have hserves := serves_handler h (habsent req List.mem_cons_self) hstore.symm
      have hrows : ∀ later ∈ requests, (Task.steps platform req.environment 3
          (rows, request.task)).1.get later.environment.rowId = none := by
        intro later hlater
        apply hserves.absent
        · intro heq
          exact hnew (List.mem_map.mpr ⟨later, hlater, heq⟩)
        · exact habsent later (List.mem_cons_of_mem req hlater)
      intro done
      obtain ⟨hrepresents, hanswers⟩ := ih hserves.represents hrest.symm hnodup hrows
        (done ++ [(Task.steps platform req.environment 3 (rows, request.task)).2])
      rw [List.length_append, List.length_singleton] at hrepresents hanswers
      rw [serialTurns, List.map_cons, Machine.final_append, final_request]
      refine ⟨hrepresents, hanswers.trans ?_⟩
      simp [hserves.response]

theorem represents_empty : Rows.Represents ∅ ∅ where
  unique := unique_empty
  keyed id record hget := by cases hget
  get_iff identity record := by
    constructor
    · intro hget
      cases hget
    · rintro ⟨⟨id, hget⟩, _⟩
      cases hget

/-- Two stores of one identity and its revocation. -/
def sampleSerial : List Request :=
  let environment (rowId : String) : Environment :=
    ⟨"2026-01-01T00:00:00.000Z", "2026-01-01T00:00:00Z", rowId, none, none, "no"⟩
  [⟨"POST", "/consent", .ok (sampleBody "on"), environment "consent:1"⟩,
    ⟨"POST", "/consent", .ok (sampleBody "off"), environment "consent:2"⟩,
    ⟨"DELETE", "/consent/me", .error "no body", environment "consent:3"⟩]

theorem serial_stores_sample :
    let w := Machine.final (step default) (start ∅ sampleRequests) (serialTurns 0 sampleSerial)
    w.rows.Represents (Machine.final (handler default) ∅ sampleSerial) ∧
      w.tasks.map Task.response = (Machine.trace (handler default) ∅ sampleSerial).map some :=
  serial_stores represents_empty (by rfl) (by decide) fun _ _ => rfl

end World

end CivicConnect.ConsentApi
