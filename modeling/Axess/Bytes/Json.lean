import Mathlib

/-!
# JSON values

What the token checks read of a parsed JSON text. The parser is not modelled; its result is.
-/

namespace Axess

inductive Json where
  | null
  | bool (value : Bool)
  | int (value : Int)
  | real
  | str (value : String)
  | arr (items : List Json)
  | obj (members : List (String × Json))

namespace Json

def asObject : Json → Option (List (String × Json))
  | obj members => some members
  | _ => none

def get (json : Json) (key : String) : Option Json := json.asObject.bind (·.lookup key)

def asStr : Json → Option String
  | str value => some value
  | _ => none

def asI64 : Json → Option Int
  | int value => if -(2 ^ 63) ≤ value ∧ value < 2 ^ 63 then some value else none
  | _ => none

def getStr (json : Json) (key : String) : Option String := (json.get key).bind asStr

end Json

end Axess
