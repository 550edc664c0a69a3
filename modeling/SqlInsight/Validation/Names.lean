/-
What the names of tables stand for: a common table expression in sight, a table of the snapshot, or
something that no snapshot holds. From this follow the columns of a query, stars included.
-/
import SqlInsight.Outline
import SqlInsight.Reading
import SqlInsight.Validation.Scope

namespace SqlInsight.Validation

open Outline (TableName)

/-- A common table expression in sight, and its columns if they are known. -/
structure CteColumns where
  name : Text
  columns : Option (List Text)
deriving Repr, DecidableEq

/-- What the name of a common table expression stands for. -/
def CteColumns.meaning (cte : CteColumns) : Meaning :=
  match cte.columns with
  | some columns => .derived cte.name columns
  | none => .unknown

/-- The snapshot, and the common table expressions in sight with the last one first. -/
structure Names where
  schema : Schema
  ctes : List CteColumns := []

/-- The schemas whose tables no snapshot holds. -/
def systemSchemas : List String :=
  ["sys", "information_schema"]

namespace Names

/-- The common table expression in sight that a table name means. -/
def cte? (n : Names) (name : TableName) : Option CteColumns :=
  match name.schema with
  | some _ => none
  | none => n.ctes.find? fun cte => cte.name.sameAscii name.name

def isSystem (name : TableName) : Bool :=
  name.schema.any fun schema => systemSchemas.any fun s => schema.sameAscii s.toList

/-- What a table name stands for; none if the table is missing. -/
def meaning? (n : Names) (name : TableName) : Option Meaning :=
  if name.isSession || isPlaceholder name.name then some .unknown
  else
    match n.cte? name with
    | some cte => some cte.meaning
    | none =>
        match n.schema.table? name.schema name.name with
        | some t => some (.table t)
        | none => if isSystem name then some .unknown else none

def tableColumns? (n : Names) (name : TableName) : Option (List Text) :=
  match n.cte? name with
  | some cte => cte.columns
  | none => (n.schema.table? name.schema name.name).map Schema.Table.columnNames

/-- The tables that a missing table may be confused with. -/
def tableNamesFor (n : Names) (name : TableName) : List Text :=
  match name.schema with
  | some schema => (n.schema.tablesIn schema).map Schema.Table.name
  | none => n.schema.tableNames

end Names

/-- A relation of a `FROM` list: the name its columns are qualified by, and the columns if they are
known. -/
structure KeyedColumns where
  key : Text
  columns : Option (List Text)

/-- The columns of some relations, one after the other; none if those of one are unknown. -/
def allColumns? (relations : List KeyedColumns) : Option (List Text) :=
  (relations.mapM KeyedColumns.columns).map List.flatten

/-- The columns that an item of a `SELECT` list gives over these relations. -/
def itemColumns? (relations : List KeyedColumns) (item : Outline.Item) : Option (List Text) :=
  match item with
  | .star => allColumns? relations
  | .starOf qualifier =>
      (relations.find? fun r => r.key.sameAscii qualifier).bind KeyedColumns.columns
  | .value _ _ => some item.outputName?.toList

mutual

def queryColumns? (n : Names) : Outline.Query → Option (List Text)
  | .mk _ selects _ => firstColumns? n selects

def firstColumns? (n : Names) : List Outline.Select → Option (List Text)
  | [] => none
  | .mk items sources _ _ _ :: _ =>
      let relations := keyedOfSources n sources
      (items.mapM (itemColumns? relations)).map List.flatten

def keyedOfSources (n : Names) : List Outline.Source → List KeyedColumns
  | [] => []
  | s :: rest => keyedOfSource n s ++ keyedOfSources n rest

def keyedOfSource (n : Names) : Outline.Source → List KeyedColumns
  | .mk relation joins => keyedOfRelation n relation :: keyedOfJoins n joins

def keyedOfJoins (n : Names) : List Outline.Join → List KeyedColumns
  | [] => []
  | .mk relation _ :: rest => keyedOfRelation n relation :: keyedOfJoins n rest

def keyedOfRelation (n : Names) : Outline.Relation → KeyedColumns
  | .table name alias? => ⟨alias?.getD name.name, n.tableColumns? name⟩
  | .derived query alias? => ⟨alias?.getD [], queryColumns? n query⟩
  | .nested source => ⟨[], allColumns? (keyedOfSource n source)⟩
  | .other alias? => ⟨alias?.getD [], none⟩

end

def derivedMeaning (n : Names) (query : Outline.Query) (alias? : Option Text) : Meaning :=
  match queryColumns? n query with
  | some columns => .derived (alias?.getD []) columns
  | none => .unknown

mutual

def scopeOfSources (n : Names) : List Outline.Source → Scope
  | [] => []
  | s :: rest => scopeOfSource n s ++ scopeOfSources n rest

/-- What an item of a `FROM` list binds. -/
def scopeOfSource (n : Names) : Outline.Source → Scope
  | .mk relation joins => scopeOfRelation n relation ++ scopeOfJoins n joins

def scopeOfJoins (n : Names) : List Outline.Join → Scope
  | [] => []
  | .mk relation _ :: rest => scopeOfRelation n relation ++ scopeOfJoins n rest

def scopeOfRelation (n : Names) : Outline.Relation → Scope
  | .table name alias? => [⟨alias?.getD name.name, (n.meaning? name).getD .unknown⟩]
  | .derived query alias? => [⟨alias?.getD [], derivedMeaning n query alias?⟩]
  | .nested source => scopeOfSource n source
  | .other alias? => [⟨alias?.getD [], .unknown⟩]

end

mutual

/-- Whether no table that a `FROM` list names directly is missing. -/
def sourcesResolve (n : Names) : List Outline.Source → Bool
  | [] => true
  | s :: rest => sourceResolves n s && sourcesResolve n rest

/-- Whether no table that an item of a `FROM` list names directly is missing. -/
def sourceResolves (n : Names) : Outline.Source → Bool
  | .mk relation joins => relationResolves n relation && joinsResolve n joins

/-- Whether no table that some joins name directly is missing. -/
def joinsResolve (n : Names) : List Outline.Join → Bool
  | [] => true
  | .mk relation _ :: rest => relationResolves n relation && joinsResolve n rest

def relationResolves (n : Names) : Outline.Relation → Bool
  | .table name _ => (n.meaning? name).isSome
  | .nested source => sourceResolves n source
  | .derived _ _ | .other _ => true

end

end SqlInsight.Validation
