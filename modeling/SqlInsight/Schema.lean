/-
A snapshot of a database: its tables with their columns, and its routines. Names are looked up in
any ASCII case.
-/
import SqlInsight.Text.Basic

namespace SqlInsight

/-- The schema of names that name none. -/
def defaultSchema : Text :=
  "dbo".toList

namespace Schema

structure Column where
  name : Text
  dataType : Text
  isNullable : Bool
  isPrimaryKey : Bool
  isIdentity : Bool
  ordinal : Nat
deriving Repr, DecidableEq, Inhabited

structure Table where
  schema : Text
  name : Text
  kind : Text
  columns : List Column
deriving Repr, DecidableEq, Inhabited

structure Parameter where
  name : Text
  dataType : Text
deriving Repr, DecidableEq, Inhabited

structure Routine where
  schema : Text
  name : Text
  kind : Text
  parameters : List Parameter
  returnType : Option Text
deriving Repr, DecidableEq, Inhabited

end Schema

structure Schema where
  database : Text
  tables : List Schema.Table
  routines : List Schema.Routine
deriving Repr, DecidableEq, Inhabited

namespace Schema

/-- A column that may be null and is no key. -/
def Column.plain (name dataType : Text) : Column :=
  ⟨name, dataType, true, false, false, 0⟩

/-- A column as the key of its table, so that it cannot be null. -/
def Column.asKey (c : Column) : Column :=
  { c with isPrimaryKey := true, isNullable := false }

def baseTable : Text :=
  "BASE TABLE".toList

/-- Columns with their places, counted from `place`, where they have none yet. -/
def numbered (place : Nat) : List Column → List Column
  | [] => []
  | c :: rest =>
      (if c.ordinal = 0 then { c with ordinal := place } else c) :: numbered (place + 1) rest

namespace Table

def base (schema name : Text) (columns : List Column) : Table :=
  ⟨schema, name, baseTable, numbered 1 columns⟩

def column? (t : Table) (name : Text) : Option Column :=
  t.columns.find? fun c => c.name.sameAscii name

def columnNames (t : Table) : List Text :=
  (t.columns.mergeSort fun a b => a.ordinal ≤ b.ordinal).map Column.name

def qualifiedName (t : Table) : Text :=
  t.schema ++ '.' :: t.name

end Table

/-- A snapshot without tables and routines. -/
def empty (database : Text) : Schema :=
  ⟨database, [], []⟩

def tablesNamed (s : Schema) (name : Text) : List Table :=
  s.tables.filter fun t => t.name.sameAscii name

/-- The table of that name. Without a schema the first one in the default schema wins, or else the
first one in any. -/
def table? (s : Schema) (schema : Option Text) (name : Text) : Option Table :=
  match schema with
  | some schema => (s.tablesNamed name).find? fun t => t.schema.sameAscii schema
  | none =>
      ((s.tablesNamed name).find? fun t => t.schema.sameAscii defaultSchema).or
        (s.tablesNamed name).head?

def tablesIn (s : Schema) (schema : Text) : List Table :=
  s.tables.filter fun t => t.schema.sameAscii schema

/-- Names without those that repeat one of `seen` or an earlier one. -/
def distinctNames (seen : List Text) : List Text → List Text
  | [] => []
  | name :: rest =>
      if seen.any (·.sameAscii name) then distinctNames seen rest
      else name :: distinctNames (name :: seen) rest

/-- The names of the schemas, first those of the tables. -/
def schemaNames (s : Schema) : List Text :=
  distinctNames [] (s.tables.map Table.schema ++ s.routines.map Routine.schema)

def tableNames (s : Schema) : List Text :=
  s.tables.map Table.name

/-- The first routine of that name, in that schema if one is given. -/
def routine? (s : Schema) (schema : Option Text) (name : Text) : Option Routine :=
  s.routines.find? fun r =>
    r.name.sameAscii name && schema.all fun schema => r.schema.sameAscii schema

end Schema

end SqlInsight
