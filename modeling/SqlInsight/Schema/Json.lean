/-
A snapshot of a database as a JSON object. Members that have a default may be left out.
-/
import SqlInsight.Json.Record
import SqlInsight.Schema

namespace SqlInsight.Schema

open Json (required optional record? text? list? nullable?)

def columnOfJson? (j : Json) : Option Column := do
  let r ← record? ["name", "dataType", "isNullable", "isPrimaryKey", "isIdentity",
    "ordinalPosition"] j
  let name ← required r "name" text?
  let dataType ← required r "dataType" text?
  let isNullable ← optional r "isNullable" false Json.bool?
  let isPrimaryKey ← optional r "isPrimaryKey" false Json.bool?
  let isIdentity ← optional r "isIdentity" false Json.bool?
  let ordinal ← optional r "ordinalPosition" 0 (Json.below? UInt32.size)
  return ⟨name, dataType, isNullable, isPrimaryKey, isIdentity, ordinal⟩

def tableOfJson? (j : Json) : Option Table := do
  let r ← record? ["schemaName", "tableName", "tableType", "columns"] j
  let schema ← required r "schemaName" text?
  let name ← required r "tableName" text?
  let kind ← optional r "tableType" baseTable text?
  let columns ← optional r "columns" [] (list? columnOfJson?)
  return ⟨schema, name, kind, columns⟩

def parameterOfJson? (j : Json) : Option Parameter := do
  let r ← record? ["name", "dataType"] j
  return ⟨← required r "name" text?, ← required r "dataType" text?⟩

def routineOfJson? (j : Json) : Option Routine := do
  let r ← record? ["schemaName", "routineName", "routineType", "parameters", "returnType"] j
  let schema ← required r "schemaName" text?
  let name ← required r "routineName" text?
  let kind ← required r "routineType" text?
  let parameters ← optional r "parameters" [] (list? parameterOfJson?)
  let returnType ← optional r "returnType" none (nullable? text?)
  return ⟨schema, name, kind, parameters, returnType⟩

/-- The snapshot that a record describes. -/
def ofJson? (j : Json) : Option Schema := do
  let r ← record? ["databaseName", "tables", "routines"] j
  let database ← required r "databaseName" text?
  let tables ← optional r "tables" [] (list? tableOfJson?)
  let routines ← optional r "routines" [] (list? routineOfJson?)
  return ⟨database, tables, routines⟩

def Column.toJson (c : Column) : Json :=
  .object [("name", Json.ofText c.name), ("dataType", Json.ofText c.dataType),
    ("isNullable", .bool c.isNullable), ("isPrimaryKey", .bool c.isPrimaryKey),
    ("isIdentity", .bool c.isIdentity), ("ordinalPosition", .natural c.ordinal)]

def Table.toJson (t : Table) : Json :=
  .object [("schemaName", Json.ofText t.schema), ("tableName", Json.ofText t.name),
    ("tableType", Json.ofText t.kind), ("columns", .array (t.columns.map Column.toJson))]

def Parameter.toJson (p : Parameter) : Json :=
  .object [("name", Json.ofText p.name), ("dataType", Json.ofText p.dataType)]

def Routine.toJson (r : Routine) : Json :=
  .object [("schemaName", Json.ofText r.schema), ("routineName", Json.ofText r.name),
    ("routineType", Json.ofText r.kind), ("parameters", .array (r.parameters.map Parameter.toJson)),
    ("returnType", Json.textOrNull r.returnType)]

def toJson (s : Schema) : Json :=
  .object [("databaseName", Json.ofText s.database), ("tables", .array (s.tables.map Table.toJson)),
    ("routines", .array (s.routines.map Routine.toJson))]

end SqlInsight.Schema
