import Mathlib.Data.List.Basic

/-!
# Source URLs and their rate limiting key

The `url` crate and the Unicode case table are not part of the repository;
they enter as a parameter, and results that need their documented behaviour
name it as a hypothesis.
-/

namespace CivicConnect.Webmention

structure Url where
  scheme : String
  username : String
  password : Option String
  host : Option String
  port : Option UInt16
  path : String
  query : Option String
  fragment : Option String
  deriving DecidableEq, Repr

/-- What the service calls of the `url` and `http` crates and of the Unicode
tables. A `setHost` that the crate refuses is `none`, `debugString` is the quoted
form of a string in a message, and `headerToStr` is the text of a header's bytes,
if they are visible ASCII characters, spaces and tabs. -/
structure Platform where
  parse : String → Option Url
  setHost : Url → String → Option Url
  toString : Url → String
  toLowercase : String → String
  debugString : String → String
  headerToStr : List UInt8 → Option String

/-- `HeaderValue::to_str`. -/
def visibleAscii (bytes : List UInt8) : Option String :=
  if bytes.all fun b => (32 ≤ b && b < 127) || b = 9 then
    some (String.ofList (bytes.map fun b => Char.ofNat b.toNat))
  else none

def asciiLowercase (s : String) : String := String.ofList (s.toList.map Char.toLower)

instance : Inhabited Platform where
  default := ⟨fun _ => none, fun _ _ => none, Url.path, asciiLowercase, String.quote,
    visibleAscii⟩

namespace Url

def setQuery (u : Url) (query : Option String) : Url := { u with query := query }

def setFragment (u : Url) (fragment : Option String) : Url := { u with fragment := fragment }

end Url

namespace Platform

/-- The URL with its query and fragment removed and its host lowercased. A
refused host change is ignored. -/
def normalizeUrl (env : Platform) (parsed : Url) : Url :=
  let parsed := (parsed.setQuery none).setFragment none
  match parsed.host with
  | some host => (env.setHost parsed (env.toLowercase host)).getD parsed
  | none => parsed

def normalizeSourceUrl (env : Platform) (url : String) : String :=
  match env.parse url with
  | some parsed => env.toString (env.normalizeUrl parsed)
  | none => env.toLowercase url

end Platform

end CivicConnect.Webmention
