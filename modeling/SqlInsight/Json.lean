/-
JSON values. The members of an object keep their order and may repeat, so that a reader of a
structure can refuse a member given twice.
-/
namespace SqlInsight

/-- A JSON value. A number written without fraction and exponent is an integer; of any other number
only the literal is kept, as it is of a broken value: a string that holds half of a surrogate pair,
or an object with a name that does. -/
inductive Json where
  | null
  | bool (value : Bool)
  | natural (value : Nat)
  | negative (magnitude : Nat)
  | real (literal : String)
  | broken (literal : String)
  | string (value : String)
  | array (items : List Json)
  | object (members : List (String × Json))
deriving Repr, BEq, Inhabited

namespace Json

def get? (name : String) : Json → Option Json
  | .object members => (members.reverse.find? (·.1 == name)).map Prod.snd
  | _ => none

def string? : Json → Option String
  | .string s => some s
  | _ => none

/-- A number that fits 64 bits without a sign. -/
def natural? : Json → Option Nat
  | .natural n => if n < UInt64.size then some n else none
  | _ => none

def bool? : Json → Option Bool
  | .bool b => some b
  | _ => none

def array? : Json → Option (List Json)
  | .array items => some items
  | _ => none

end Json

end SqlInsight
