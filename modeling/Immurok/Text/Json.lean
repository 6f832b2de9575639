import Immurok.Text.Str

/-!
# JSON

Values as `serde_json` has them, and how a field of one is read.
-/

namespace Immurok

/-- `serde_json::Value`; its three kinds of number are constructors of their own. -/
inductive Json
  | null
  | bool (b : Bool)
  | posInt (n : Nat)
  | negInt (n : Int)
  | float (q : Rat)
  | str (s : Str)
  | arr (vs : List Json)
  | obj (fields : List (Str × Json))

def Json.get (key : Str) : Json → Option Json
  | .obj fields => fields.lookup key
  | _ => none

def Json.asStr : Json → Option Str
  | .str s => some s
  | _ => none

def Json.asU64 : Json → Option Nat
  | .posInt n => some n
  | _ => none

def Json.asBool : Json → Option Bool
  | .bool b => some b
  | _ => none

end Immurok
