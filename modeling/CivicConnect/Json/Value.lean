import Mathlib.Data.Rat.Defs

/-!
# JSON values

The value type of `serde_json`. A number is an unsigned or a negative 64-bit
integer, or a finite float.
-/

namespace CivicConnect.Json

inductive JsonNumber where
  | posInt (n : UInt64)
  | negInt (n : Int64)
  | float (q : ℚ)
  deriving DecidableEq, Repr

inductive JsonValue where
  | null
  | bool (b : Bool)
  | number (n : JsonNumber)
  | string (s : String)
  | array (items : List JsonValue)
  | object (members : List (String × JsonValue))
  deriving Repr

namespace JsonValue

def field (v : JsonValue) (key : String) : Option JsonValue :=
  match v with
  | object members => members.lookup key
  | _ => none

/-- The member of an object; `null` where there is none. -/
def index (v : JsonValue) (key : String) : JsonValue := (v.field key).getD null

def asBool : JsonValue → Option Bool
  | bool b => some b
  | _ => none

end JsonValue

end CivicConnect.Json
