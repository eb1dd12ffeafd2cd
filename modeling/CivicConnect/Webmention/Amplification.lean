import CivicConnect.Webmention.Handlers
import CivicConnect.Webmention.Windows

/-!
# The source limit and the spelling of the URL

The limit is kept for each key of the source bucket map. A key forgets the
query, the fragment and the letter case of the host, but it remembers the user
name and the password, so a resource has as many buckets as it is given
spellings of its user information.
-/

namespace CivicConnect.Webmention

open Net

structure Resource where
  scheme : String
  host : Option String
  port : Option UInt16
  path : String
  deriving DecidableEq, Repr

namespace Url

def resource (env : Platform) (u : Url) : Resource :=
  ⟨u.scheme, u.host.map env.toLowercase, u.port, u.path⟩

def userinfo (u : Url) : String × Option String := (u.username, u.password)

end Url

def Resource.url (r : Resource) (userinfo : String × Option String) : Url :=
  ⟨r.scheme, userinfo.1, userinfo.2, r.host, r.port, r.path, none, none⟩

/-- Setting the host of a parsed URL to its own host in lower case succeeds
and changes nothing else. -/
def Platform.SetsHosts (env : Platform) : Prop :=
  ∀ s u host, env.parse s = some u → u.host = some host →
    env.setHost ((u.setQuery none).setFragment none) (env.toLowercase host) =
      some { (u.setQuery none).setFragment none with host := some (env.toLowercase host) }

theorem Platform.SetsHosts.normalizeSourceUrl {env : Platform} (hset : env.SetsHosts) {s : String}
    {u : Url} (hparse : env.parse s = some u) :
    env.normalizeSourceUrl s = env.toString ((u.resource env).url u.userinfo) := by
  rw [Platform.normalizeSourceUrl, hparse]
  have hnormal : env.normalizeUrl u = (u.resource env).url u.userinfo := by
    rw [Platform.normalizeUrl]
    cases hhost : u.host with
    | none => simp [Url.setQuery, Url.setFragment, hhost, Resource.url, Url.resource, Url.userinfo]
    | some host =>
        simp only [Url.setQuery, Url.setFragment, hhost]
        have hsome := hset s u host hparse hhost
        simp only [Url.setQuery, Url.setFragment, hhost] at hsome
        rw [hsome]
        simp [Resource.url, Url.resource, Url.userinfo, hhost]
  exact congrArg env.toString hnormal

def CheckRequest.sourceUrl (env : Platform) (req : CheckRequest) : Option Url :=
  req.source.bind env.parse

def CheckRequest.names (env : Platform) (r : Resource) (req : CheckRequest) : Bool :=
  (req.sourceUrl env).map (Url.resource env) = some r

def CheckRequest.key (env : Platform) (req : CheckRequest) : Option String :=
  req.source.map env.normalizeSourceUrl

namespace AppState

def Nondecreasing (events : List ServiceEvent) : Prop :=
  (events.map ServiceEvent.now).Pairwise (· ≤ ·)

instance (events : List ServiceEvent) : Decidable (Nondecreasing events) :=
  inferInstanceAs (Decidable (List.Pairwise _ _))

theorem limiterEvent_now {env : Platform} {v : WebmentionValidator} {e : ServiceEvent} {e' : Event}
    (h : e.limiterEvent env v = some e') : e'.now = e.now := by
  obtain ⟨now, call⟩ := e
  cases call with
  | check req =>
      obtain ⟨ip, _, rfl⟩ := Option.map_eq_some_iff.mp h
      rfl
  | cleanup =>
      obtain rfl := Option.some.inj h
      rfl

theorem Nondecreasing.limiterEvents {events : List ServiceEvent} (h : Nondecreasing events)
    (env : Platform) (v : WebmentionValidator) :
    Webmention.Nondecreasing (events.filterMap (ServiceEvent.limiterEvent env v)) :=
  Machine.pairwise_filterMap (fun _ _ => limiterEvent_now) h

variable {env : Platform} {validator : WebmentionValidator} {config : RateLimitConfig}
  {events : List ServiceEvent}

end AppState

def victimPage (username : String) (query : Option String) : Url :=
  ⟨"https", username, none, some "victim.example", none, "/p", query, none⟩

def sampleWeb : Platform where
  parse s := [("https://a@victim.example/p", victimPage "a" none),
    ("https://a@VICTIM.example/p?x", victimPage "a" (some "x")),
    ("https://b@victim.example/p", victimPage "b" none),
    ("https://blog.example/q",
      ⟨"https", "", none, some "blog.example", none, "/q", none, none⟩)].lookup s
  setHost u host := some { u with host := some host }
  toString u := u.scheme ++ "://" ++ u.username ++ "@" ++ u.host.getD "" ++ u.path
  toLowercase := asciiLowercase
  debugString := String.quote
  headerToStr := visibleAscii

namespace AppState

end AppState

end CivicConnect.Webmention
