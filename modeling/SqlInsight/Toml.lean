/-
TOML values. Of a number with a fraction or an exponent, and of a date or a time, only the literal
is kept.
-/
import SqlInsight.Text.Basic

namespace SqlInsight

/-- A TOML value. The keys of a table are all different. -/
inductive Toml where
  | string (value : Text)
  | integer (value : Int)
  | boolean (value : Bool)
  | real (literal : Text)
  | moment (literal : Text)
  | array (items : List Toml)
  | table (members : List (Text × Toml))
deriving Repr, Inhabited

namespace Toml

def isTable : Toml → Bool
  | table _ => true
  | _ => false

def string? : Toml → Option Text
  | string t => some t
  | _ => none

def natural? : Toml → Option Nat
  | integer (.ofNat n) => some n
  | _ => none

def boolean? : Toml → Option Bool
  | boolean b => some b
  | _ => none

/-- The items of an array, each read by `read`; none if one does not fit. -/
def list? {α : Type} (read : Toml → Option α) : Toml → Option (List α)
  | array items => items.mapM read
  | _ => none

end Toml

end SqlInsight
