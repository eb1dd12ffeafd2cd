import CivicConnect.ConsentApi.Handler
import CivicConnect.Library.Machine

/-!
# Opting out

How long a refused operation stays refused. A request may store preferences,
revoke them or ask about them; an operation is permitted by the stored value,
or by its default when there is no record.
-/

namespace CivicConnect.ConsentApi

open Json

def ConsentPreferences.field (prefs : ConsentPreferences) : Operation → Option JsonValue
  | .telemetry => prefs.telemetry
  | .indexing => prefs.indexing
  | .webmentions => prefs.webmentions
  | .dnsOperations => prefs.dnsOperations

theorem ConsentPreferences.field_ofBody (body : JsonValue) (operation : Operation) :
    (ofBody body).field operation = body.field operation.key := by
  cases operation <;> rfl

theorem ConsentPreferences.checkSchema_some {prefs : ConsentPreferences}
    {datetime : JsonValue → Option String} {p : AdmittedPreferences}
    (h : prefs.checkSchema datetime = some p) :
    prefs.identity = some (.string p.identity) ∧
      ∀ operation, prefs.field operation = some (.string (p.value operation)) := by
  simp only [checkSchema, Option.bind_eq_bind, Option.bind_eq_some_iff, asString_eq_some_iff] at h
  obtain ⟨identity, hidentity, telemetry, htelemetry, indexing, hindexing, webmentions,
    hwebmentions, dnsOperations, hdns, _, _, _, _, _, _, hp⟩ := h
  split at hp
  · obtain rfl := Option.some.inj hp
    refine ⟨hidentity, fun operation => ?_⟩
    cases operation with
    | telemetry => exact htelemetry
    | indexing => exact hindexing
    | webmentions => exact hwebmentions
    | dnsOperations => exact hdns
  · cases hp

theorem orDefault_eq_some {field : Option JsonValue} {default value : String}
    (h : orDefault field default = some (.string value)) :
    field = some (.string value) ∨ truthy field = false ∧ value = default := by
  rw [orDefault] at h
  split at h
  · exact .inl h
  · next hfalsy =>
      obtain rfl := JsonValue.string.inj (Option.some.inj h)
      exact .inr ⟨Bool.eq_false_iff.mpr hfalsy, rfl⟩

theorem ConsentPreferences.field_withDefaults {prefs : ConsentPreferences} {isoNow value : String}
    {operation : Operation}
    (h : (prefs.withDefaults isoNow).field operation = some (.string value)) :
    prefs.field operation = some (.string value) ∨
      truthy (prefs.field operation) = false ∧
        (operation = .webmentions ∧ value = "on" ∨ operation = .dnsOperations ∧ value = "off") := by
  cases operation with
  | telemetry => exact .inl h
  | indexing => exact .inl h
  | webmentions =>
      rcases orDefault_eq_some h with hvalue | ⟨hfalsy, hvalue⟩
      · exact .inl hvalue
      · exact .inr ⟨hfalsy, .inl ⟨rfl, hvalue⟩⟩
  | dnsOperations =>
      rcases orDefault_eq_some h with hvalue | ⟨hfalsy, hvalue⟩
      · exact .inl hvalue
      · exact .inr ⟨hfalsy, .inr ⟨rfl, hvalue⟩⟩

namespace Table

theorem written_value (table : Table) (env : Environment) (prefs : AdmittedPreferences)
    (hash : String) (operation : Operation) :
    (written table env prefs hash).value operation = prefs.value operation := by
  rw [written]
  cases table.get prefs.identity <;> cases operation <;> rfl

theorem permits_set (table : Table) (identity other : String) (record : ConsentRecord)
    (operation : Operation) :
    permits (table.set other record) identity operation =
      if identity = other then decide (record.value operation = "on")
      else permits table identity operation := by
  rw [permits]
  rw [KeyedMap.get_set]
  split_ifs <;> rfl

theorem permits_remove (table : Table) (identity other : String) (operation : Operation) :
    permits (table.remove other) identity operation =
      if identity = other then decide (defaultValue operation = "on")
      else permits table identity operation := by
  unfold permits
  split_ifs with h
  · rw [h, KeyedMap.get_remove_self]
  · rw [KeyedMap.get_remove_ne table h]

end Table

structure Exchange where
  request : Request
  response : Response

namespace Exchange

def Posts (x : Exchange) (identity : String) (body : JsonValue) : Prop :=
  x.request.method = "POST" ∧ x.request.path = "/consent" ∧ x.request.body = .ok body ∧
    body.field "identity" = some (.string identity) ∧ x.response.status = 201

def Carries (x : Exchange) (identity : String) (operation : Operation) (value : String) : Prop :=
  ∃ body, x.Posts identity body ∧ body.field operation.key = some (.string value)

/-- What ends an opt-out: a value `on`, preferences that leave webmentions to
their default, and for the operations that are permitted by default the
revocation of the record. -/
def Reopens (x : Exchange) (identity : String) (operation : Operation) : Prop :=
  x.Carries identity operation "on" ∨
    match operation with
    | .telemetry | .dnsOperations => False
    | .indexing => x.response = .revoked identity
    | .webmentions =>
        x.response = .revoked identity ∨
          ∃ body, x.Posts identity body ∧ truthy (body.field "webmentions") = false

theorem not_carries_of_method {x : Exchange} (h : x.request.method ≠ "POST") (identity : String)
    (operation : Operation) (value : String) : ¬ x.Carries identity operation value := by
  rintro ⟨body, ⟨hmethod, _⟩, _⟩
  exact h hmethod

end Exchange

def step (platform : Platform) (table : Table) (req : Request) : Table × Exchange :=
  ((handler platform table req).1, ⟨req, (handler platform table req).2⟩)

abbrev log (platform : Platform) (table : Table) (requests : List Request) : List Exchange :=
  Machine.trace (step platform) table requests

/-- What a request does to the table, and what it answers. -/
inductive Effect (platform : Platform) (table : Table) (req : Request) :
    Table → Response → Prop where
  | store (body : JsonValue) (p : AdmittedPreferences) (record : ConsentRecord)
      (hmethod : req.method = "POST") (hpath : req.path = "/consent") (hbody : req.body = .ok body)
      (hschema : ((ConsentPreferences.ofBody body).withDefaults req.environment.isoNow).checkSchema
        platform.datetime = some p)
      (hrecord : ∀ operation, record.value operation = p.value operation) :
      Effect platform table req (table.set p.identity record) (.stored record)
  | revoke (identity : String) :
      Effect platform table req (table.remove identity) (.revoked identity)
  | check (identity : String) (operation : Operation) :
      Effect platform table req table
        (.checked identity operation (table.permits identity operation))
  | other (response : Response) (hstatus : response.status ≠ 201)
      (hrevoked : ∀ identity, response ≠ .revoked identity)
      (hchecked : ∀ identity operation allowed, response ≠ .checked identity operation allowed) :
      Effect platform table req table response

variable {platform : Platform} {table : Table} {req : Request}

theorem effect_failure {status : ℕ} (hstatus : status ≠ 201) (message : String) :
    Effect platform table req table (.failure status message) :=
  .other _ hstatus (fun _ => nofun) (fun _ _ _ => nofun)

theorem effect_postConsent (hmethod : req.method = "POST") (hpath : req.path = "/consent") :
    Effect platform table req (postConsent platform table req).1
      (postConsent platform table req).2 := by
  rw [postConsent]
  split
  · next message _ => exact effect_failure (by decide) message
  · exact effect_failure (by decide) _
  · next body _ hbody =>
      dsimp only
      split
      · rcases hstore : Table.storeConsent platform table req.environment
          ((ConsentPreferences.ofBody body).withDefaults req.environment.isoNow) with
          ⟨table', message | record⟩
        · obtain rfl := Table.storeConsent_error hstore
          exact effect_failure (by decide) message
        · obtain ⟨p, _, hschema, _, hrecord, rfl⟩ := Table.storeConsent_ok hstore
          exact .store body p record hmethod hpath hbody hschema fun operation => by
            rw [hrecord, Table.written_value]
      · exact effect_failure (by decide) _

theorem effect_checkConsent (encoded : String) :
    Effect platform table req table (checkConsent platform table req encoded) := by
  rw [checkConsent]
  split
  · exact effect_failure (by decide) _
  · next identity _ =>
      split
      · exact effect_failure (by decide) _
      · exact effect_failure (by decide) _
      · split
        · exact effect_failure (by decide) _
        · next operation _ =>
            rw [Table.checkConsentForOperation]
            cases req.environment.selectError with
            | some message => exact effect_failure (by decide) message
            | none => exact .check identity operation

theorem effect_deleteConsent (encoded : String) :
    Effect platform table req (deleteConsent platform table req encoded).1
      (deleteConsent platform table req encoded).2 := by
  unfold deleteConsent Table.revokeConsent
  split
  · exact effect_failure (by decide) _
  · next identity _ =>
      cases req.environment.writeError with
      | some message => exact effect_failure (by decide) message
      | none => exact .revoke identity

theorem effect_readConsent (encoded : String) :
    Effect platform table req table (readConsent platform table req encoded) := by
  rw [readConsent]
  split
  · exact effect_failure (by decide) _
  · split
    · exact effect_failure (by decide) _
    · exact .other _ (by simp [Response.status]) (fun _ => nofun) (fun _ _ _ => nofun)
    · exact .other _ (by simp [Response.status]) (fun _ => nofun) (fun _ _ _ => nofun)

theorem effect_handler (platform : Platform) (table : Table) (req : Request) :
    Effect platform table req (handler platform table req).1 (handler platform table req).2 := by
  rw [handler]
  split
  · exact .other _ (by simp [Response.status]) (fun _ => nofun) (fun _ _ _ => nofun)
  split
  · next h => exact effect_postConsent h.2 h.1
  split
  · exact effect_readConsent _
  split
  · exact effect_checkConsent _
  split
  · exact effect_deleteConsent _
  split
  · exact .other _ (by simp [Response.status]) (fun _ => nofun) (fun _ _ _ => nofun)
  · exact effect_failure (by decide) _

theorem stored_value {body : JsonValue} {isoNow : String} {datetime : JsonValue → Option String}
    {p : AdmittedPreferences}
    (h : ((ConsentPreferences.ofBody body).withDefaults isoNow).checkSchema datetime = some p)
    (operation : Operation) :
    body.field operation.key = some (.string (p.value operation)) ∨
      truthy (body.field operation.key) = false ∧
        (operation = .webmentions ∧ p.value operation = "on" ∨
          operation = .dnsOperations ∧ p.value operation = "off") := by
  rw [← ConsentPreferences.field_ofBody]
  exact ConsentPreferences.field_withDefaults ((ConsentPreferences.checkSchema_some h).2 operation)

theorem permits_of_off {identity : String} {operation : Operation}
    (h : (step platform table req).2.Carries identity operation "off") :
    (step platform table req).1.permits identity operation = false := by
  obtain ⟨body, ⟨_, _, hbody, hidentity, hstatus⟩, hoff⟩ := h
  have heffect := effect_handler platform table req
  simp only [step] at hbody hstatus ⊢
  generalize (handler platform table req).1 = table', (handler platform table req).2 = response
    at heffect hstatus ⊢
  cases heffect with
  | store body' p record _ _ hbody' hschema hrecord =>
      obtain rfl := Except.ok.inj (hbody.symm.trans hbody')
      have hsame : body.field "identity" = some (.string p.identity) :=
        (ConsentPreferences.checkSchema_some hschema).1
      have hkey : identity = p.identity := by simpa [hidentity] using hsame
      rw [Table.permits_set, if_pos hkey, hrecord]
      rcases stored_value hschema operation with hvalue | ⟨hfalsy, _⟩
      · have hvalue : "off" = p.value operation := by simpa [hoff] using hvalue
        rw [← hvalue]
        rfl
      · rw [hoff] at hfalsy
        simp [truthy] at hfalsy
  | revoke identity' => simp [Response.status] at hstatus
  | check identity' operation' => simp [Response.status] at hstatus
  | other response hother _ _ => exact absurd hstatus hother

/-- A refused operation stays refused in every step that does not reopen it. -/
theorem permits_step {identity : String} {operation : Operation}
    (h : table.permits identity operation = false)
    (hclosed : ¬ (step platform table req).2.Reopens identity operation) :
    (step platform table req).1.permits identity operation = false := by
  have heffect := effect_handler platform table req
  simp only [step] at hclosed ⊢
  generalize (handler platform table req).1 = table', (handler platform table req).2 = response
    at heffect hclosed ⊢
  cases heffect with
  | store body p record hmethod hpath hbody hschema hrecord =>
      rw [Table.permits_set]
      split_ifs with hkey
      · subst hkey
        rw [hrecord, decide_eq_false_iff_not]
        intro hon
        have hposts : Exchange.Posts ⟨req, .stored record⟩ p.identity body :=
          ⟨hmethod, hpath, hbody, (ConsentPreferences.checkSchema_some hschema).1, rfl⟩
        rcases stored_value hschema operation with hvalue | ⟨hfalsy, ⟨rfl, _⟩ | ⟨_, hoff⟩⟩
        · exact hclosed (.inl ⟨body, hposts, hon ▸ hvalue⟩)
        · exact hclosed (.inr (.inr ⟨body, hposts, hfalsy⟩))
        · simp [hoff] at hon
      · exact h
  | revoke identity' =>
      rw [Table.permits_remove]
      split_ifs with hkey
      · subst hkey
        -- Only the operations that are permitted by default are reopened.
        cases operation with
        | telemetry => rfl
        | dnsOperations => rfl
        | indexing => exact absurd (.inr rfl) hclosed
        | webmentions => exact absurd (.inr (.inl rfl)) hclosed
      · exact h
  | check identity' operation' => exact h
  | other response _ _ _ => exact h

def Closed (identity : String) (operation : Operation) (table : Table)
    (exchanges : List Exchange) : Prop :=
  (∀ x ∈ exchanges, ¬ x.Reopens identity operation) → table.permits identity operation = false

theorem Closed.step {identity : String} {operation : Operation} {exchanges : List Exchange}
    (h : Closed identity operation table exchanges) (req : Request) :
    Closed identity operation (step platform table req).1
      (exchanges ++ [(step platform table req).2]) := by
  intro hexchanges
  exact permits_step (h fun x hx => hexchanges x (List.mem_append_left _ hx))
    (hexchanges _ (List.mem_append_right _ (List.mem_singleton_self _)))

theorem closed_run {identity : String} {operation : Operation}
    (h : table.permits identity operation = false) (requests : List Request) :
    Closed identity operation (Machine.final (step platform) table requests)
      (Machine.trace (step platform) table requests) :=
  Machine.invariant_trace (I := Closed identity operation) (fun _ _ req ih => ih.step req)
    (fun _ => h) requests

theorem checked_eq {identity : String} {operation : Operation} {allowed : Bool}
    (h : (step platform table req).2.response = .checked identity operation allowed) :
    allowed = table.permits identity operation := by
  have heffect := effect_handler platform table req
  simp only [step] at h
  generalize (handler platform table req).1 = table', (handler platform table req).2 = response
    at heffect h
  subst h
  cases heffect with
  | check => rfl
  | other _ _ _ hchecked => exact absurd rfl (hchecked identity operation allowed)

/-- After a request that refuses the operation, every check refuses it until an
exchange that reopens it. -/
def StaysOff (exchanges : List Exchange) (identity : String) (operation : Operation)
    (reopens : Exchange → Prop) : Prop :=
  ∀ (before : List Exchange) (post : Exchange) (middle : List Exchange) (check : Exchange)
    (later : List Exchange) (allowed : Bool),
    exchanges = before ++ post :: (middle ++ check :: later) →
      post.Carries identity operation "off" → (∀ x ∈ middle, ¬ reopens x) →
        check.response = .checked identity operation allowed → allowed = false

/-- An opt-out holds along every run until it is taken back, or a default takes
its place. -/
theorem opt_out_stays (platform : Platform) (table : Table) (requests : List Request)
    (identity : String) (operation : Operation) :
    StaysOff (log platform table requests) identity operation
      fun x => x.Reopens identity operation := by
  intro before post middle check later allowed hlog hoff hmiddle hcheck
  obtain ⟨earlier, req, rest, _, _, rfl, hrest⟩ := Machine.trace_split hlog
  obtain ⟨between, last, _, _, hbetween, rfl, _⟩ := Machine.trace_split hrest.symm
  rw [checked_eq hcheck]
  refine closed_run (permits_of_off hoff) between fun x hx => ?_
  rw [hbetween] at hx
  exact hmiddle x hx

def samplePlatform : Platform := ⟨some, id, asString ∘ some, fun _ => ""⟩

def sampleEnvironment : Environment :=
  ⟨"2026-01-01T00:00:00.000Z", "2026-01-01T00:00:00Z", "consent:1", none, none, "no"⟩

def samplePost (indexing : String) (webmentions : Option String) : Request where
  method := "POST"
  path := "/consent"
  body := .ok (.object ([("identity", .string "me"), ("telemetry", .string "off"),
    ("indexing", .string indexing), ("source", .string "wordpress://example.com")] ++
      webmentions.toList.map fun value => ("webmentions", .string value)))
  environment := sampleEnvironment

def sampleRevocation : Request := ⟨"DELETE", "/consent/me", .ok .null, sampleEnvironment⟩

def sampleCheck (operation : String) : Request :=
  ⟨"POST", "/consent/me/check", .ok (.object [("operation", .string operation)]), sampleEnvironment⟩

/-- The law of the opt-out with nothing but an explicit `on` to end it fails
in three ways: a revocation permits indexing and webmentions again, and so do
preferences that leave webmentions out. -/
theorem opt_out_lost :
    ¬ StaysOff
        (log samplePlatform ∅ [samplePost "off" none, sampleRevocation, sampleCheck "indexing"])
        "me" .indexing (fun x => x.Carries "me" .indexing "on") ∧
      ¬ StaysOff
        (log samplePlatform ∅
          [samplePost "on" (some "off"), sampleRevocation, sampleCheck "webmentions"])
        "me" .webmentions (fun x => x.Carries "me" .webmentions "on") ∧
      ¬ StaysOff
        (log samplePlatform ∅
          [samplePost "on" (some "off"), samplePost "on" none, sampleCheck "webmentions"])
        "me" .webmentions (fun x => x.Carries "me" .webmentions "on") := by
  refine ⟨fun hstays => ?_, fun hstays => ?_, fun hstays => ?_⟩
  · have hfalse := hstays [] _ [_] _ [] true rfl ⟨_, ⟨rfl, rfl, rfl, rfl, rfl⟩, rfl⟩ ?_ rfl
    · cases hfalse
    · intro x hx
      obtain rfl := List.mem_singleton.mp hx
      exact Exchange.not_carries_of_method (by decide) _ _ _
  · have hfalse := hstays [] _ [_] _ [] true rfl ⟨_, ⟨rfl, rfl, rfl, rfl, rfl⟩, rfl⟩ ?_ rfl
    · cases hfalse
    · intro x hx
      obtain rfl := List.mem_singleton.mp hx
      exact Exchange.not_carries_of_method (by decide) _ _ _
  · have hfalse := hstays [] _ [_] _ [] true rfl ⟨_, ⟨rfl, rfl, rfl, rfl, rfl⟩, rfl⟩ ?_ rfl
    · cases hfalse
    · rintro x hx ⟨body, ⟨_, _, hbody, _⟩, hon⟩
      obtain rfl := List.mem_singleton.mp hx
      obtain rfl := Except.ok.inj hbody
      cases hon

end CivicConnect.ConsentApi
