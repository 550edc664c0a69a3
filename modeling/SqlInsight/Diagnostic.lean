/-
Findings about a buffer: what kind of finding it is, how grave it is, where it is, and what was
probably meant.
-/
import SqlInsight.Text.Position

namespace SqlInsight

/-- How grave a finding is. -/
inductive Severity where
  | info
  | warning
  | error
deriving Repr, DecidableEq, Inhabited

namespace Severity

def name : Severity → String
  | info => "info"
  | warning => "warning"
  | error => "error"

/-- The severities from the least grave one on. -/
def all : List Severity :=
  [info, warning, error]

def ofName? (name : String) : Option Severity :=
  all.find? (·.name == name)

def rank : Severity → Nat
  | info => 0
  | warning => 1
  | error => 2

theorem ofName?_name (s : Severity) : ofName? s.name = some s := by
  cases s <;> decide

end Severity

inductive Code where
  | syntaxError
  | tableNotFound
  | columnNotFound
  | ambiguousColumn
  | selectStar
  | updateWithoutWhere
  | deleteWithoutWhere
deriving Repr, DecidableEq, Inhabited

namespace Code

def name : Code → String
  | syntaxError => "SYNTAX_ERROR"
  | tableNotFound => "TABLE_NOT_FOUND"
  | columnNotFound => "COLUMN_NOT_FOUND"
  | ambiguousColumn => "AMBIGUOUS_COLUMN"
  | selectStar => "SELECT_STAR"
  | updateWithoutWhere => "UPDATE_WITHOUT_WHERE"
  | deleteWithoutWhere => "DELETE_WITHOUT_WHERE"

def all : List Code :=
  [syntaxError, tableNotFound, columnNotFound, ambiguousColumn, selectStar, updateWithoutWhere,
    deleteWithoutWhere]

def ofName? (name : String) : Option Code :=
  all.find? (·.name == name)

theorem ofName?_name (c : Code) : ofName? c.name = some c := by
  cases c <;> decide

end Code

/-- A finding: the message includes the suggestion, if there is one. -/
structure Diagnostic where
  code : Code
  severity : Severity
  message : Text
  range : Range
  suggestion : Option Text
deriving Repr, DecidableEq, Inhabited

namespace Diagnostic

/-- A finding at the start of the buffer, without a suggestion. -/
def create (code : Code) (severity : Severity) (message : Text) : Diagnostic :=
  ⟨code, severity, message, Range.onLine 1 1 1, none⟩

/-- A finding with the question whether another name was meant. -/
def suggesting (d : Diagnostic) (name : Text) : Diagnostic :=
  { d with
    message := d.message ++ ". Did you mean '".toList ++ name ++ "'?".toList
    suggestion := some name }

end Diagnostic

end SqlInsight
