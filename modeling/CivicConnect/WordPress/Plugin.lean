import CivicConnect.GraphqlDns.ConsentProtocol

/-!
# The WordPress plugin

The plugin keeps the choices of a user in the metadata of the user and posts
them to the consent API after a save, a profile update or a registration.
-/

namespace CivicConnect.WordPress

open Json
open ConsentApi (Operation)

abbrev UserId := ℕ

structure UserData where
  userUrl : String
  userNicename : String
  deriving DecidableEq, Repr

def metaKey : Operation → String
  | .telemetry => "indieweb2_telemetry"
  | .indexing => "indieweb2_indexing"
  | .webmentions => "indieweb2_webmentions"
  | .dnsOperations => "indieweb2_dns_operations"

def defaultChoice : Operation → String
  | .telemetry => "off"
  | .indexing => "on"
  | .webmentions => "on"
  | .dnsOperations => "off"

/-- `$value ?: $default`, where the empty string and `"0"` count as false. -/
def orElse (value default : String) : String :=
  if value = "" ∨ value = "0" then default else value

/-- What the plugin reads and writes of a site. -/
structure Site where
  siteUrl : String
  users : KeyedMap UserId UserData
  userMeta : KeyedMap (UserId × String) String
  consentApiUrl : Option String
  consentAutoSync : Option String

namespace Site

def getUserMeta (site : Site) (user : UserId) (key : String) : String :=
  (site.userMeta.get (user, key)).getD ""

def updateUserMeta (site : Site) (user : UserId) (key value : String) : Site :=
  { site with userMeta := site.userMeta.set (user, key) value }

/-- The value of an operation as the plugin shows and posts it. -/
def choice (site : Site) (user : UserId) (operation : Operation) : String :=
  orElse (site.getUserMeta user (metaKey operation)) (defaultChoice operation)

def getUserIdentity (site : Site) (user : UserId) : String :=
  match site.users.get user with
  | some data => orElse data.userUrl (site.siteUrl ++ "/author/" ++ data.userNicename)
  | none => site.siteUrl ++ "/author/"

/-- The four updates of a save or a registration, in their order. -/
def updateChoices (site : Site) (user : UserId) (value : Operation → String) : Site :=
  (((site.updateUserMeta user (metaKey .telemetry) (value .telemetry)).updateUserMeta
    user (metaKey .indexing) (value .indexing)).updateUserMeta
    user (metaKey .webmentions) (value .webmentions)).updateUserMeta
    user (metaKey .dnsOperations) (value .dnsOperations)

end Site

/-- The constants of the plugin, the host that PHP reads off a URL, and the
consent API with the origin where it listens. -/
structure Setting where
  defaultApiUrl : String
  parseUrlHost : String → Option String
  origin : ConsentApi.Origin
  platform : ConsentApi.Platform

def consent (setting : Setting) (site : Site) (user : UserId) (now : String) : JsonValue :=
  .object
    [("identity", .string (site.getUserIdentity user)),
      ("telemetry", .string (site.choice user .telemetry)),
      ("indexing", .string (site.choice user .indexing)),
      ("webmentions", .string (site.choice user .webmentions)),
      ("dnsOperations", .string (site.choice user .dnsOperations)),
      ("timestamp", .string now),
      ("source", .string ("wordpress://" ++ (setting.parseUrlHost site.siteUrl).getD ""))]

/-- What becomes of a request: it does not arrive, its answer does not arrive in
time, or it is answered. -/
inductive Transport where
  | failed (message : String)
  | late (message : String)
  | answered
  deriving DecidableEq, Repr

/-- The surroundings of one call of `sync_consent`. A server other than the API
answers with a status of its own. -/
structure Attempt where
  now : String
  transport : Transport
  environment : ConsentApi.Environment
  otherStatus : ℕ
  deriving DecidableEq, Repr

structure World where
  site : Site
  table : ConsentApi.Table

namespace World

/-- The server at the URL handles the request. -/
def serve (setting : Setting) (w : World) (attempt : Attempt) (url : String) (body : JsonValue) :
    World × ℕ :=
  match ConsentApi.arrivalPath setting.origin url with
  | some path =>
      let (table, response) := ConsentApi.handler setting.platform w.table
        ⟨"POST", path, .ok body, attempt.environment⟩
      ({ w with table := table }, response.status)
  | none => (w, attempt.otherStatus)

def wpRemotePost (setting : Setting) (w : World) (attempt : Attempt) (url : String)
    (body : JsonValue) : World × Except String ℕ :=
  match attempt.transport with
  | .failed message => (w, .error message)
  | .late message => ((w.serve setting attempt url body).1, .error message)
  | .answered =>
      let (w, status) := w.serve setting attempt url body
      (w, .ok status)

end World

structure SyncResult where
  synced : Bool
  errorLog : Option String
  deriving DecidableEq, Repr

def syncResult : Except String ℕ → SyncResult
  | .error message => ⟨false, some ("IndieWeb2 Consent API error: " ++ message)⟩
  | .ok status =>
      if status ≠ 200 ∧ status ≠ 201 then
        ⟨false, some ("IndieWeb2 Consent API returned status " ++ toString status)⟩
      else ⟨true, none⟩

def Site.apiUrl (setting : Setting) (site : Site) : String :=
  site.consentApiUrl.getD setting.defaultApiUrl

/-- The body of the four fields of a save; a field may be missing. -/
abbrev Form := Operation → Option String

inductive PageRequest where
  | get
  | post (nonceValid : Bool) (form : Form)

structure Page where
  notice : Option String
  choices : Operation → String
  identity : String

namespace World

def syncConsent (setting : Setting) (w : World) (user : UserId) (attempt : Attempt) :
    World × SyncResult :=
  let (w', response) := w.wpRemotePost setting attempt (w.site.apiUrl setting ++ "/consent")
    (consent setting w.site user attempt.now)
  (w', syncResult response)

def syncConsentOnProfileUpdate (setting : Setting) (w : World) (user : UserId)
    (attempt : Attempt) : World × Option SyncResult :=
  if w.site.consentAutoSync.getD "1" = "1" then
    let (w, result) := w.syncConsent setting user attempt
    (w, some result)
  else (w, none)

def syncConsentOnRegistration (setting : Setting) (w : World) (user : UserId)
    (attempt : Attempt) : World × SyncResult :=
  { w with site := w.site.updateChoices user defaultChoice }.syncConsent setting user attempt

def page (w : World) (user : UserId) (notice : Option String) : Page :=
  ⟨notice, w.site.choice user, w.site.getUserIdentity user⟩

/-- A request with an invalid nonce dies, so there is no page. -/
def renderUserConsentPage (setting : Setting) (w : World) (user : UserId) (attempt : Attempt) :
    PageRequest → World × Option Page × Option SyncResult
  | .get => (w, some (w.page user none), none)
  | .post false _ => (w, none, none)
  | .post true form =>
      let saved := { w with
        site := w.site.updateChoices user fun operation => (form operation).getD "off" }
      let (w, result) := saved.syncConsent setting user attempt
      (w, some (w.page user
        (some "Consent preferences saved and synced to IndieWeb2 Bastion.")), some result)

end World

/-- What happens on a site: a user opens the page of the plugin, WordPress adds,
changes or deletes a user, or an administrator saves the settings. -/
inductive Event where
  | openPage (user : UserId) (request : PageRequest) (attempt : Attempt)
  | register (user : UserId) (data : UserData) (attempt : Attempt)
  | updateProfile (user : UserId) (data : UserData) (attempt : Attempt)
  | deleteUser (user : UserId)
  | saveSettings (consentApiUrl consentAutoSync : String)

structure Outcome where
  page : Option Page
  result : Option SyncResult

namespace Site

def putUser (site : Site) (user : UserId) (data : UserData) : Site :=
  { site with users := site.users.set user data }

def removeUser (site : Site) (user : UserId) : Site :=
  { site with
    users := site.users.remove user
    userMeta := site.userMeta.retain fun key _ => key.1 ≠ user }

end Site

namespace World

/-- Only users that exist have a page or a profile, and WordPress registers a
user under an id that is free. -/
def step (setting : Setting) (w : World) : Event → World × Outcome
  | .openPage user request attempt =>
      if (w.site.users.get user).isSome then
        let (w, page, result) := w.renderUserConsentPage setting user attempt request
        (w, ⟨page, result⟩)
      else (w, ⟨none, none⟩)
  | .register user data attempt =>
      if (w.site.users.get user).isSome then (w, ⟨none, none⟩)
      else
        let (w, result) := { w with site := w.site.putUser user data }.syncConsentOnRegistration
          setting user attempt
        (w, ⟨none, some result⟩)
  | .updateProfile user data attempt =>
      if (w.site.users.get user).isSome then
        let (w, result) := { w with site := w.site.putUser user data }.syncConsentOnProfileUpdate
          setting user attempt
        (w, ⟨none, result⟩)
      else (w, ⟨none, none⟩)
  | .deleteUser user => ({ w with site := w.site.removeUser user }, ⟨none, none⟩)
  | .saveSettings consentApiUrl consentAutoSync =>
      ({ w with site := { w.site with
          consentApiUrl := some consentApiUrl
          consentAutoSync := some consentAutoSync } }, ⟨none, none⟩)

end World

end CivicConnect.WordPress
