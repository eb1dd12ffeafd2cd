import CivicConnect.Library.LastWrite
import CivicConnect.WordPress.Plugin

/-!
# What a sync leaves behind

The plugin copies the choices of a user into the consent table, under the
identity that the user has at the time. The copy is what counts for the checks.
-/

namespace CivicConnect.WordPress

open Json
open ConsentApi (Operation)

def Transport.arrives : Transport → Bool
  | failed _ => false
  | late _ => true
  | answered => true

/-- The time that the API stores. -/
def Attempt.timestamp (attempt : Attempt) : String :=
  if attempt.now = "" then attempt.environment.isoNow else attempt.now

theorem orElse_ne_empty {value default : String} (h : default ≠ "") :
    orElse value default ≠ "" := by
  rw [orElse]
  split_ifs with hvalue
  · exact h
  · exact fun hempty => hvalue (Or.inl hempty)

namespace Site

variable (site : Site) (user : UserId)

/-- The page shows the operation as switched on. -/
def shows (operation : Operation) : Bool := site.choice user operation = "on"

/-- The database can store what a sync of the user carries. -/
def Admitted (setting : Setting) (attempt : Attempt) : Prop :=
  attempt.environment.selectError = none ∧ attempt.environment.writeError = none ∧
    (setting.platform.datetime (.string attempt.timestamp)).isSome ∧
      (site.choice user .dnsOperations = "on" ∨ site.choice user .dnsOperations = "off")

/-- A sync of the user gets into the table. -/
def Published (setting : Setting) (attempt : Attempt) : Prop :=
  ConsentApi.arrivalPath setting.origin (site.apiUrl setting ++ "/consent") = some "/consent" ∧
    attempt.transport.arrives = true ∧ site.Admitted user setting attempt

instance (setting : Setting) (attempt : Attempt) :
    Decidable (site.Admitted user setting attempt) :=
  inferInstanceAs (Decidable (_ ∧ _))

instance (setting : Setting) (attempt : Attempt) :
    Decidable (site.Published user setting attempt) :=
  inferInstanceAs (Decidable (_ ∧ _))

theorem choice_ne_empty (operation : Operation) : site.choice user operation ≠ "" := by
  apply orElse_ne_empty
  cases operation <;> decide

theorem getUserIdentity_ne_empty : site.getUserIdentity user ≠ "" := by
  have happend : ∀ name : String, site.siteUrl ++ "/author/" ++ name ≠ "" := by
    intro name h
    have hlist := congrArg String.toList h
    simp at hlist
  rw [getUserIdentity]
  cases site.users.get user with
  | some data => exact orElse_ne_empty (happend data.userNicename)
  | none =>
      have h := happend ""
      rwa [String.append_empty] at h

end Site

section

variable (setting : Setting) (site : Site) (user : UserId) (attempt : Attempt)

/-- The preferences that arrive, after the defaults for what is missing. -/
def posted : ConsentApi.ConsentPreferences where
  identity := some (.string (site.getUserIdentity user))
  telemetry := some (.string (site.choice user .telemetry))
  indexing := some (.string (site.choice user .indexing))
  webmentions := some (.string (site.choice user .webmentions))
  dnsOperations := some (.string (site.choice user .dnsOperations))
  manifestRef := none
  timestamp := some (.string attempt.timestamp)
  source := some (.string ("wordpress://" ++ (setting.parseUrlHost site.siteUrl).getD ""))

theorem ofBody_consent :
    ConsentApi.ConsentPreferences.ofBody (consent setting site user attempt.now) =
      { posted setting site user attempt with timestamp := some (.string attempt.now) } := by
  rfl

theorem orDefault_string {s : String} (h : s ≠ "") (default : String) :
    ConsentApi.orDefault (some (.string s)) default = some (.string s) := by
  simp [ConsentApi.orDefault, ConsentApi.truthy, h]

theorem withDefaults_consent :
    (ConsentApi.ConsentPreferences.ofBody (consent setting site user attempt.now)).withDefaults
      attempt.environment.isoNow = posted setting site user attempt := by
  have htime : ConsentApi.orDefault (some (.string attempt.now)) attempt.environment.isoNow =
      some (.string attempt.timestamp) := by
    rw [Attempt.timestamp]
    split_ifs with hnow
    · simp [ConsentApi.orDefault, ConsentApi.truthy, hnow]
    · exact orDefault_string hnow _
  rw [ofBody_consent]
  simp only [ConsentApi.ConsentPreferences.withDefaults, posted, htime,
    orDefault_string (site.choice_ne_empty user _)]

theorem complete_consent :
    (ConsentApi.ConsentPreferences.ofBody (consent setting site user attempt.now)).complete =
      true := by
  rw [ofBody_consent]
  simp [ConsentApi.ConsentPreferences.complete, posted, ConsentApi.truthy,
    site.choice_ne_empty user, site.getUserIdentity_ne_empty user]

theorem checkSchema_posted (h : site.Admitted user setting attempt) :
    ∃ p, (posted setting site user attempt).checkSchema setting.platform.datetime = some p ∧
      p.identity = site.getUserIdentity user ∧
        ∀ operation, p.value operation = site.choice user operation := by
  obtain ⟨_, _, htime, hdns⟩ := h
  obtain ⟨time, htime⟩ := Option.isSome_iff_exists.mp htime
  refine ⟨⟨site.getUserIdentity user, site.choice user .telemetry, site.choice user .indexing,
    site.choice user .webmentions, site.choice user .dnsOperations, hdns, none, time,
    "wordpress://" ++ (setting.parseUrlHost site.siteUrl).getD ""⟩, ?_, rfl, ?_⟩
  · simp [ConsentApi.ConsentPreferences.checkSchema, posted, ConsentApi.asString,
      ConsentApi.asOptionString, htime, hdns]
  · intro operation
    cases operation <;> rfl

theorem checkSchema_posted_none (hselect : attempt.environment.selectError = none)
    (hwrite : attempt.environment.writeError = none) (h : ¬ site.Admitted user setting attempt) :
    (posted setting site user attempt).checkSchema setting.platform.datetime = none := by
  rw [Option.eq_none_iff_forall_ne_some]
  intro p hp
  apply h
  obtain ⟨_, hvalue⟩ := ConsentApi.ConsentPreferences.checkSchema_some hp
  have hdns : site.choice user .dnsOperations = p.dnsOperations :=
    JsonValue.string.inj (Option.some.inj (hvalue .dnsOperations))
  refine ⟨hselect, hwrite, ?_, ?_⟩
  · cases htime : setting.platform.datetime (.string attempt.timestamp) with
    | some time => rfl
    | none => simp [ConsentApi.ConsentPreferences.checkSchema, posted, htime] at hp
  · rw [hdns]
    exact p.dnsOperations_mem

theorem hashInput_posted (numberText : JsonNumber → String) :
    ∃ input, (posted setting site user attempt).hashInput numberText = some input := by
  apply Exists.intro
  rfl

/-- The request as it arrives. -/
def arrival (path : String) : ConsentApi.Request :=
  ⟨"POST", path, .ok (consent setting site user attempt.now), attempt.environment⟩

/-- What the API does with the body of a sync. -/
theorem postConsent_arrival (table : ConsentApi.Table) (path : String) :
    (site.Admitted user setting attempt ∧ ∃ record,
      ConsentApi.postConsent setting.platform table (arrival setting site user attempt path) =
        (table.set (site.getUserIdentity user) record, .stored record) ∧
      ∀ operation, record.value operation = site.choice user operation) ∨
    (¬ site.Admitted user setting attempt ∧ ∃ message,
      ConsentApi.postConsent setting.platform table (arrival setting site user attempt path) =
        (table, .failure 500 message)) := by
  obtain ⟨input, hinput⟩ := hashInput_posted setting site user attempt setting.platform.numberText
  have hcomplete := complete_consent setting site user attempt
  have hdefaults := withDefaults_consent setting site user attempt
  have henvironment : (arrival setting site user attempt path).environment =
      attempt.environment := rfl
  have hstored : ∀ table' record, table.storeConsent setting.platform attempt.environment
      (posted setting site user attempt) = (table', .ok record) →
      ConsentApi.postConsent setting.platform table (arrival setting site user attempt path) =
        (table', .stored record) := by
    intro table' record hstore
    rw [← hdefaults] at hstore
    refine (if_pos hcomplete).trans ?_
    rw [henvironment, hstore]
  have hfailed : ∀ message, table.storeConsent setting.platform attempt.environment
      (posted setting site user attempt) = (table, .error message) →
      ConsentApi.postConsent setting.platform table (arrival setting site user attempt path) =
        (table, .failure 500 message) := by
    intro message hstore
    rw [← hdefaults] at hstore
    refine (if_pos hcomplete).trans ?_
    rw [henvironment, hstore]
  by_cases h : site.Admitted user setting attempt
  · obtain ⟨p, hschema, hidentity, hvalue⟩ := checkSchema_posted setting site user attempt h
    have hselect := h.1
    have hwrite := h.2.1
    left
    refine ⟨h, table.written attempt.environment p (setting.platform.sha256Hex input), ?_, ?_⟩
    · apply hstored
      simp [ConsentApi.Table.storeConsent, hselect, hinput, hschema, hwrite, hidentity]
    · intro operation
      rw [ConsentApi.Table.written_value, hvalue]
  · right
    refine ⟨h, ?_⟩
    cases hselect : attempt.environment.selectError with
    | some message =>
        refine ⟨message, hfailed message ?_⟩
        simp [ConsentApi.Table.storeConsent, hselect]
    | none =>
        cases hschema : (posted setting site user attempt).checkSchema
            setting.platform.datetime with
        | none =>
            refine ⟨attempt.environment.schemaError, hfailed _ ?_⟩
            simp [ConsentApi.Table.storeConsent, hselect, hinput, hschema]
        | some p =>
            cases hwrite : attempt.environment.writeError with
            | none =>
                have hnone := checkSchema_posted_none setting site user attempt hselect hwrite h
                cases hnone.symm.trans hschema
            | some message =>
                refine ⟨message, hfailed message ?_⟩
                simp [ConsentApi.Table.storeConsent, hselect, hinput, hschema, hwrite]

/-- A `POST` to another path than `/consent` stores nothing. -/
theorem handler_arrival (table : ConsentApi.Table) {path : String} (hpath : path ≠ "/consent") :
    (ConsentApi.handler setting.platform table
      (arrival setting site user attempt path)).1 = table := by
  by_cases hcheck : (ConsentApi.checkedIdentity path).isSome
  · simp [ConsentApi.handler, arrival, hpath, hcheck]
  · simp [ConsentApi.handler, arrival, hpath, hcheck]

end

namespace World

variable (setting : Setting) (w : World) (user : UserId) (attempt : Attempt)

/-- The URL of a sync. -/
def syncUrl : String := w.site.apiUrl setting ++ "/consent"

/-- A server gets the request of a sync: it stores the preferences or leaves the
table as it is. -/
theorem serve_cases :
    (ConsentApi.arrivalPath setting.origin (w.syncUrl setting) = some "/consent" ∧
      w.site.Admitted user setting attempt ∧
      ∃ record, w.serve setting attempt (w.syncUrl setting)
          (consent setting w.site user attempt.now) =
        (⟨w.site, w.table.set (w.site.getUserIdentity user) record⟩, 201) ∧
        ∀ operation, record.value operation = w.site.choice user operation) ∨
    (¬ (ConsentApi.arrivalPath setting.origin (w.syncUrl setting) = some "/consent" ∧
        w.site.Admitted user setting attempt) ∧
      (w.serve setting attempt (w.syncUrl setting)
        (consent setting w.site user attempt.now)).1 = w) := by
  unfold serve
  cases hpath : ConsentApi.arrivalPath setting.origin (w.syncUrl setting) with
  | none => exact Or.inr ⟨nofun, rfl⟩
  | some path =>
      by_cases hconsent : path = "/consent"
      · subst hconsent
        rcases postConsent_arrival setting w.site user attempt w.table "/consent" with
          ⟨hadmitted, record, hpost, hvalue⟩ | ⟨hrefused, message, hpost⟩
        · refine Or.inl ⟨rfl, hadmitted, record, ?_, hvalue⟩
          exact congrArg (fun result : ConsentApi.Table × ConsentApi.Response =>
            ((⟨w.site, result.1⟩ : World), result.2.status)) hpost
        · refine Or.inr ⟨fun h => hrefused h.2, ?_⟩
          exact congrArg (fun result : ConsentApi.Table × ConsentApi.Response =>
            (⟨w.site, result.1⟩ : World)) hpost
      · refine Or.inr ⟨fun h => hconsent (Option.some.inj h.1), ?_⟩
        exact congrArg (World.mk w.site)
          (handler_arrival setting w.site user attempt w.table hconsent)

theorem syncConsent_fst : (w.syncConsent setting user attempt).1 =
    if attempt.transport.arrives = true then
      (w.serve setting attempt (w.syncUrl setting) (consent setting w.site user attempt.now)).1
    else w := by
  unfold syncConsent wpRemotePost
  cases htransport : attempt.transport with
  | failed message => rfl
  | late message => rfl
  | answered => rfl

theorem site_syncConsent : (w.syncConsent setting user attempt).1.site = w.site := by
  rw [syncConsent_fst]
  split_ifs with harrives
  · rcases w.serve_cases setting user attempt with
      ⟨_, _, record, hserve, _⟩ | ⟨_, hserve⟩
    · rw [hserve]
    · rw [hserve]
  · rfl

/-- A sync that is published sets what the table permits to the identity of the
user; any other leaves the table alone. -/
theorem permits_syncConsent (identity : String) (operation : Operation) :
    (w.syncConsent setting user attempt).1.table.permits identity operation =
      if w.site.Published user setting attempt ∧ identity = w.site.getUserIdentity user then
        w.site.shows user operation
      else w.table.permits identity operation := by
  rw [syncConsent_fst]
  by_cases harrives : attempt.transport.arrives = true
  · rw [if_pos harrives]
    rcases w.serve_cases setting user attempt with
      ⟨hpath, hadmitted, record, hserve, hvalue⟩ | ⟨hnone, hserve⟩
    · have hpublished : w.site.Published user setting attempt := ⟨hpath, harrives, hadmitted⟩
      rw [hserve, ConsentApi.Table.permits_set, hvalue]
      simp only [hpublished, true_and]
      rfl
    · rw [hserve, if_neg]
      rintro ⟨⟨hpath, _, hadmitted⟩, _⟩
      exact hnone ⟨hpath, hadmitted⟩
  · rw [if_neg harrives, if_neg]
    rintro ⟨⟨_, h, _⟩, _⟩
    exact harrives h

end World

end CivicConnect.WordPress
