/-
The tables of a TOML document while it is read. A table has a header, is only implied by the header
of another, or comes about by a dotted key; what one of these has defined the others may only extend
in some cases.
-/
import SqlInsight.Keyed
import SqlInsight.Toml

namespace SqlInsight.Toml

/-- How a table came about. -/
inductive TableForm where
  | header
  | implied
  | dotted
deriving Repr, DecidableEq

/-- What stands under a key while a document is read: a value that is complete, a table, or an array
of tables, the last of which comes first. -/
inductive Item where
  | value (value : Toml)
  | table (form : TableForm) (members : List (Text × Item))
  | tables (elements : List (List (Text × Item)))
deriving Inhabited

/-- The items of a table under their keys. -/
abbrev Members := List (Text × Item)

namespace Members

/-- Change the members of the table under a key with the rest of a header, or bring one about. -/
def descend (f : Members → Option Members) (key : Text) (m : Members) : Option Members :=
  match m.lookup key with
  | none => (f []).map fun inner => m ++ [(key, .table .implied inner)]
  | some (.table form inner) => (f inner).map fun inner => Keyed.put key (.table form inner) m
  | some (.tables (last :: earlier)) =>
      (f last).map fun last => Keyed.put key (.tables (last :: earlier)) m
  | some _ => none

/-- Bring about the table that a header names. It may have been implied, but not defined. -/
def openTable : (path : List Text) → Members → Option Members
  | [], _ => none
  | [key], m =>
      match m.lookup key with
      | none => some (m ++ [(key, .table .header [])])
      | some (.table .implied inner) => some (Keyed.put key (.table .header inner) m)
      | some _ => none
  | key :: rest, m => descend (openTable rest) key m

/-- Bring about one more table of the array that a header names. -/
def openElement : (path : List Text) → Members → Option Members
  | [], _ => none
  | [key], m =>
      match m.lookup key with
      | none => some (m ++ [(key, .tables [[]])])
      | some (.tables elements) => some (Keyed.put key (.tables ([] :: elements)) m)
      | some _ => none
  | key :: rest, m => descend (openElement rest) key m

/-- Put a value under a dotted key, whose parts before the last are `path`. No table that has a
header, and none that one implies, gets a value this way. -/
def assign (key : Text) (value : Toml) : (path : List Text) → Members → Option Members
  | [], m => if (m.lookup key).isSome then none else some (m ++ [(key, .value value)])
  | part :: rest, m =>
      match m.lookup part with
      | none => (assign key value rest []).map fun inner => m ++ [(part, .table .dotted inner)]
      | some (.table form inner) =>
          if form = .header ∨ (rest = [] ∧ form ≠ .dotted) then none
          else (assign key value rest inner).map fun inner => Keyed.put part (.table form inner) m
      | some (.tables (last :: earlier)) =>
          if rest = [] then none
          else
            (assign key value rest last).map fun last =>
              Keyed.put part (.tables (last :: earlier)) m
      | some _ => none

/-- Put a value under a dotted key of the table that a header has brought about. -/
def assignUnder (header : List Text) (key : List Text) (value : Toml) (m : Members) :
    Option Members :=
  match header with
  | part :: rest => descend (assignUnder rest key value) part m
  | [] => key.getLast?.bind fun last => assign last value key.dropLast m

end Members

mutual

def Item.close : Item → Toml
  | .value v => v
  | .table _ members => .table (closeMembers members)
  | .tables elements => .array (closeElements elements).reverse

def closeMembers : List (Text × Item) → List (Text × Toml)
  | [] => []
  | (key, item) :: rest => (key, item.close) :: closeMembers rest

/-- Complete elements of an array of tables. -/
def closeElements : List (List (Text × Item)) → List Toml
  | [] => []
  | members :: rest => .table (closeMembers members) :: closeElements rest

end

end SqlInsight.Toml
