/-
The state of a check of one statement: the names in sight, the scopes that are open, and what has
been found. A check of a name adds at most one finding.
-/
import SqlInsight.Settings
import SqlInsight.Spelling
import SqlInsight.Validation.Anchor
import SqlInsight.Validation.Names

namespace SqlInsight.Validation

open Outline (TableName)

structure Finding where
  code : Code
  severity : Severity
  message : Text
  suggestion : Option Text
  anchor : Anchor
deriving Repr, DecidableEq

/-- The state of a check: what table names stand for, the open scopes with the innermost one first,
and the findings in order. -/
structure Checker where
  settings : Settings
  names : Names
  scopes : List Scope := []
  findings : List Finding := []

namespace Checker

def report (c : Checker) (f : Finding) : Checker :=
  { c with findings := c.findings ++ [f] }

def enter (c : Checker) (scope : Scope) : Checker :=
  { c with scopes := scope :: c.scopes }

/-- Close the innermost scope. -/
def leave (c : Checker) : Checker :=
  { c with scopes := c.scopes.tail }

/-- Bring a common table expression into sight. -/
def declare (c : Checker) (cte : CteColumns) : Checker :=
  { c with names := { c.names with ctes := cte :: c.names.ctes } }

/-- Keep only the first `count` common table expressions that came into sight. -/
def forget (c : Checker) (count : Nat) : Checker :=
  let ctes := c.names.ctes
  { c with names := { c.names with ctes := ctes.drop (ctes.length - count) } }

/-- The candidate that was probably meant by a name. -/
def suggest? (c : Checker) (name : Text) (candidates : List Text) : Option Text :=
  Spelling.nearest? name candidates c.settings.maxSuggestionDistance

def missingTable (c : Checker) (name : TableName) : Finding :=
  { code := .tableNotFound
    severity := .error
    message := "Table '".toList ++ name.render ++ "' not found".toList
    suggestion := c.suggest? name.name (c.names.tableNamesFor name)
    anchor := .table name.schema name.name }

def checkTable (c : Checker) (name : TableName) : Checker :=
  match c.names.meaning? name with
  | some _ => c
  | none => c.report (c.missingTable name)

def missingColumn (c : Checker) (qualifier : Option Text) (name label : Text)
    (candidates : List Text) : Finding :=
  { code := .columnNotFound
    severity := .error
    message := "Column '".toList ++ name ++ "' not found in '".toList ++ label ++ ['\'']
    suggestion := c.suggest? name candidates
    anchor := .identifier qualifier name }

def checkTarget (t : Schema.Table) (c : Checker) (column : Text) : Checker :=
  if (t.column? column).isSome then c
  else c.report (c.missingColumn none column t.qualifiedName t.columnNames)

/-- Check a qualified column. What is not bound is left alone. -/
def checkQualified (c : Checker) (qualifier name : Text) : Checker :=
  match Scope.lookup? c.scopes qualifier with
  | none => c
  | some b =>
      if b.meaning.hasColumn? name = some false then
        c.report (c.missingColumn (some qualifier) name b.meaning.label b.meaning.columnNames)
      else c

def checkUnqualified (c : Checker) (name : Text) : Checker :=
  match Scope.resolve c.scopes name with
  | .found => c
  | .ambiguous labels =>
      c.report
        { code := .ambiguousColumn
          severity := .warning
          message := "Column '".toList ++ name ++ "' is ambiguous (found in ".toList
            ++ List.intercalate ", ".toList labels ++ [')']
          suggestion := none
          anchor := .identifier none name }
  | .missing =>
      c.report
        { code := .columnNotFound
          severity := .error
          message := "Column '".toList ++ name ++ "' not found".toList
          suggestion := c.suggest? name (Scope.columnNames c.scopes)
          anchor := .identifier none name }

/-- Check a column where the names of `aliases` stand for themselves. -/
def checkColumn (aliases : List Text) (c : Checker) (column : Outline.Column) : Checker :=
  match column.qualifier with
  | some qualifier => c.checkQualified qualifier column.name
  | none =>
      if aliases.any fun a => a.sameAscii column.name then c else c.checkUnqualified column.name

/-- Advise against a star in a `SELECT` list. -/
def adviseStar (c : Checker) : Checker :=
  c.report
    { code := .selectStar
      severity := .info
      message := "SELECT * returns every column; list the columns you need".toList
      suggestion := none
      anchor := .star }

def adviseUpdate (c : Checker) (table : Option TableName) : Checker :=
  let target :=
    match table with
    | some name => '\'' :: name.render ++ ['\'']
    | none => "the target table".toList
  c.report
    { code := .updateWithoutWhere
      severity := .warning
      message := "UPDATE without WHERE affects every row of ".toList ++ target
      suggestion := none
      anchor := .word "UPDATE".toList }

/-- Advise against the deletion of all rows. -/
def adviseDelete (c : Checker) : Checker :=
  c.report
    { code := .deleteWithoutWhere
      severity := .warning
      message := "DELETE without WHERE removes every row".toList
      suggestion := none
      anchor := .word "DELETE".toList }

end Checker

end SqlInsight.Validation
