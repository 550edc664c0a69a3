/-
What the names in a scope stand for, and which of them a column belongs to. The innermost scope that
knows a column decides; a scope with something of unknown columns may know any column.
-/
import SqlInsight.Schema

namespace SqlInsight.Validation

/-- What a name in scope stands for: a table, a query with known columns, or something whose columns
cannot be known. -/
inductive Meaning where
  | table (table : Schema.Table)
  | derived (name : Text) (columns : List Text)
  | unknown
deriving Repr, DecidableEq

namespace Meaning

/-- Whether there is such a column; none if that cannot be known. -/
def hasColumn? (column : Text) : Meaning → Option Bool
  | table t => some (t.column? column).isSome
  | derived _ columns => some (columns.any fun c => c.sameAscii column)
  | unknown => none

/-- How a message calls it. -/
def label : Meaning → Text
  | table t => t.qualifiedName
  | derived name _ => name
  | unknown => []

def columnNames : Meaning → List Text
  | table t => t.columnNames
  | derived _ columns => columns
  | unknown => []

def table? : Meaning → Option Schema.Table
  | table t => some t
  | _ => none

end Meaning

/-- A name in scope, which is an alias or the name of a table, and what it stands for. -/
structure Bound where
  key : Text
  meaning : Meaning
deriving Repr, DecidableEq

/-- The names that one `FROM` list binds, in the order they are written. -/
abbrev Scope := List Bound

namespace Scope

/-- The last binding of a name in the innermost scope that binds it; the innermost scope comes
first. -/
def lookup? (scopes : List Scope) (key : Text) : Option Bound :=
  scopes.findSome? fun scope => scope.reverse.find? fun b => b.key.sameAscii key

/-- What an unqualified column comes to. -/
inductive Resolution where
  | found
  | ambiguous (labels : List Text)
  | missing
deriving Repr, DecidableEq

/-- What a scope says about an unqualified column; nothing if no name in it may have the column. -/
def resolve? (scope : Scope) (column : Text) : Option Resolution :=
  match scope.filter fun b => b.meaning.hasColumn? column == some true with
  | [] => if scope.any fun b => b.meaning == .unknown then some .found else none
  | [_] => some .found
  | several => some (.ambiguous (several.map fun b => b.meaning.label))

/-- What an unqualified column comes to. Where no name is in scope at all nothing is missing. -/
def resolve (scopes : List Scope) (column : Text) : Resolution :=
  if scopes.all List.isEmpty then .found
  else (scopes.findSome? fun scope => resolve? scope column).getD .missing

/-- The columns known in the innermost scope that binds anything. -/
def columnNames (scopes : List Scope) : List Text :=
  match scopes.find? fun scope => !List.isEmpty scope with
  | some scope => scope.flatMap fun b => b.meaning.columnNames
  | none => []

end Scope

end SqlInsight.Validation
