import CivicConnect.Net.Numerals
import CivicConnect.Webmention.SourceUrl

/-!
# The request validator

A request is checked for its content type, for the presence and the form of
its two URLs, and for being a self-ping, in this order. The first check that
fails names the error.
-/

namespace CivicConnect.Webmention

open Net

structure ValidationConfig where
  requireContentType : List String
  requireSourceTarget : Bool
  blockSelfPing : Bool
  deriving DecidableEq, Repr

def defaultContentTypes : List String := ["application/x-www-form-urlencoded"]

instance : Inhabited ValidationConfig where
  default := ⟨defaultContentTypes, true, true⟩

inductive ValidationError where
  | invalidContentType (expected : List String) (actual : Option String)
  | missingParameter (name : String)
  | invalidUrl (param url : String)
  | selfPingBlocked (domain : String)
  deriving DecidableEq, Repr

def ValidationError.display (env : Platform) : ValidationError → String
  | invalidContentType expected actual =>
      let shown := "[" ++ ", ".intercalate (expected.map env.debugString) ++ "]"
      let got := match actual with
        | some ct => "Some(" ++ env.debugString ct ++ ")"
        | none => "None"
      "Invalid Content-Type: expected one of " ++ shown ++ ", got " ++ got
  | missingParameter name => "Missing required parameter: " ++ name
  | invalidUrl param url => "Invalid URL format for " ++ param ++ ": " ++ url
  | selfPingBlocked domain => "Self-ping blocked: source and target share domain " ++ domain

abbrev ValidationResult := Except ValidationError Unit

structure WebmentionValidator where
  config : ValidationConfig
  deriving DecidableEq, Repr

def trim (s : String) : String := String.ofList (Net.trim s.toList)

def labels (host : String) : List String := (host.toList.splitOn '.').map String.ofList

def twoPartTlds : List String :=
  ["co.uk", "org.uk", "me.uk", "co.nz", "co.jp", "co.kr",
    "com.au", "net.au", "org.au", "com.br", "co.za"]

def isTwoPartTld (suffix : String) : Bool := twoPartTlds.contains suffix

/-- The last two labels, or three where the last two are a known suffix. -/
def extractRegistrableDomain (env : Platform) (host : String) : String :=
  let host := env.toLowercase host
  if (parseIpAddr host).isSome then host
  else
    match (labels host).reverse with
    | last :: second :: third :: _ =>
        let lastTwo := second ++ "." ++ last
        if isTwoPartTld lastTwo then third ++ "." ++ lastTwo else lastTwo
    | _ => host

namespace WebmentionValidator

def validateContentType (env : Platform) (v : WebmentionValidator) (contentType : Option String) :
    ValidationResult :=
  let ct := contentType.map fun s =>
    env.toLowercase (trim (String.ofList (s.toList.takeWhile (· ≠ ';'))))
  let expectedLower := v.config.requireContentType.map env.toLowercase
  match ct with
  | some actual =>
      if expectedLower.contains actual then .ok ()
      else .error (.invalidContentType v.config.requireContentType ct)
  | none => .error (.invalidContentType v.config.requireContentType ct)

def requireParameter (name : String) (value : Option String) : Except ValidationError String :=
  match value with
  | some s => if trim s = "" then .error (.missingParameter name) else .ok s
  | none => .error (.missingParameter name)

def parseParameter (env : Platform) (name url : String) : Except ValidationError Url :=
  match env.parse url with
  | some parsed => .ok parsed
  | none => .error (.invalidUrl name url)

def requireWebUrl (name url : String) (parsed : Url) : ValidationResult :=
  if (parsed.scheme = "http" ∨ parsed.scheme = "https") ∧ parsed.host.isSome then .ok ()
  else .error (.invalidUrl name url)

def checkSelfPing (env : Platform) (source target : Url) : ValidationResult :=
  match source.host, target.host with
  | some sourceHost, some targetHost =>
      let sourceDomain := extractRegistrableDomain env sourceHost
      if sourceDomain = extractRegistrableDomain env targetHost then
        .error (.selfPingBlocked sourceDomain)
      else .ok ()
  | _, _ => .ok ()

def validateSourceTarget (env : Platform) (v : WebmentionValidator)
    (source target : Option String) : ValidationResult :=
  if v.config.requireSourceTarget then do
    let source ← requireParameter "source" source
    let target ← requireParameter "target" target
    let sourceUrl ← parseParameter env "source" source
    let targetUrl ← parseParameter env "target" target
    requireWebUrl "source" source sourceUrl
    requireWebUrl "target" target targetUrl
    if v.config.blockSelfPing then checkSelfPing env sourceUrl targetUrl else .ok ()
  else .ok ()

def validate (env : Platform) (v : WebmentionValidator)
    (contentType source target : Option String) : ValidationResult := do
  v.validateContentType env contentType
  v.validateSourceTarget env source target

end WebmentionValidator

end CivicConnect.Webmention
