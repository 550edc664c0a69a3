/-
A snapshot in JSON comes back as it was written, and so does one of which members that have a
default were left out, but with the defaults in their place; of every record other members may be
left out. That the ordinals are numbers of 32 bits is all that is asked of a snapshot.
-/
import SqlInsight.Proofs.Json.Record
import SqlInsight.Schema.Json

namespace SqlInsight.Schema

open Json (Member ofText textOrNull text? record? required_given optional_given record?_written
  mapM_mapIdx mapM_mapIdx_some ite_bind)

/-- Which of the members that have a default are written of a column. -/
structure Column.Given where
  isNullable : Bool
  isPrimaryKey : Bool
  isIdentity : Bool
  ordinal : Bool

/-- Which of the members that have a default are written of a table, and of each of its columns. -/
structure Table.Given where
  kind : Bool
  columns : Bool
  column : Nat → Column.Given

/-- Which of the members that have a default are written of a routine. -/
structure Routine.Given where
  parameters : Bool
  returnType : Bool

/-- Which of the members that have a default are written of a snapshot, and of each of its tables
and routines. -/
structure Given where
  tables : Bool
  routines : Bool
  table : Nat → Table.Given
  routine : Nat → Routine.Given

namespace Column

/-- Whether the ordinal of a column is a number of 32 bits. -/
def fits (c : Column) : Bool :=
  c.ordinal < UInt32.size

def members (g : Given) (c : Column) : List Member :=
  [⟨"name", true, ofText c.name⟩, ⟨"dataType", true, ofText c.dataType⟩,
    ⟨"isNullable", g.isNullable, .bool c.isNullable⟩,
    ⟨"isPrimaryKey", g.isPrimaryKey, .bool c.isPrimaryKey⟩,
    ⟨"isIdentity", g.isIdentity, .bool c.isIdentity⟩,
    ⟨"ordinalPosition", g.ordinal, .natural c.ordinal⟩]

/-- A column as an object without the members that are left out. -/
def written (g : Given) (c : Column) : Json :=
  Json.written (c.members g)

/-- A column with the defaults for the members that are left out. -/
def kept (g : Given) (c : Column) : Column where
  name := c.name
  dataType := c.dataType
  isNullable := if g.isNullable then c.isNullable else false
  isPrimaryKey := if g.isPrimaryKey then c.isPrimaryKey else false
  isIdentity := if g.isIdentity then c.isIdentity else false
  ordinal := if g.ordinal then c.ordinal else 0

end Column

theorem columnOfJson?_written (g : Column.Given) (c : Column) :
    columnOfJson? (c.written g) = if (c.kept g).fits then some (c.kept g) else none := by
  have hnodup : ((c.members g).map Member.name).Nodup := by simp [Column.members]
  have hrecord : record? ["name", "dataType", "isNullable", "isPrimaryKey", "isIdentity",
      "ordinalPosition"] (c.written g) = some (Json.given (c.members g)) := record?_written hnodup
  have hbelow : Json.below? UInt32.size (.natural c.ordinal) =
      if c.ordinal < UInt32.size then some c.ordinal else none := Json.below?_natural (by decide)
  simp only [columnOfJson?, hrecord, Option.bind_eq_bind, Option.bind_some, required_given hnodup,
    optional_given hnodup]
  cases hordinal : g.ordinal with
  | true =>
      simp [Column.members, Column.kept, Column.fits, hordinal, hbelow, ite_bind,
        ← apply_ite some]
  | false => simp [Column.members, Column.kept, Column.fits, hordinal, ← apply_ite some]

namespace Table

def fits (t : Table) : Bool :=
  t.columns.all Column.fits

def members (g : Given) (t : Table) : List Member :=
  [⟨"schemaName", true, ofText t.schema⟩, ⟨"tableName", true, ofText t.name⟩,
    ⟨"tableType", g.kind, ofText t.kind⟩,
    ⟨"columns", g.columns, .array (t.columns.mapIdx fun i c => c.written (g.column i))⟩]

/-- A table as an object without the members that are left out. -/
def written (g : Given) (t : Table) : Json :=
  Json.written (t.members g)

/-- A table with the defaults for the members that are left out. -/
def kept (g : Given) (t : Table) : Table where
  schema := t.schema
  name := t.name
  kind := if g.kind then t.kind else baseTable
  columns := if g.columns then t.columns.mapIdx fun i c => c.kept (g.column i) else []

end Table

theorem tableOfJson?_written (g : Table.Given) (t : Table) :
    tableOfJson? (t.written g) = if (t.kept g).fits then some (t.kept g) else none := by
  have hnodup : ((t.members g).map Member.name).Nodup := by simp [Table.members]
  have hrecord : record? ["schemaName", "tableName", "tableType", "columns"] (t.written g) =
      some (Json.given (t.members g)) := record?_written hnodup
  have hcolumns := mapM_mapIdx Column.fits (fun i => columnOfJson?_written (g.column i)) t.columns
  simp only [tableOfJson?, hrecord, Option.bind_eq_bind, Option.bind_some, required_given hnodup,
    optional_given hnodup]
  cases hgiven : g.columns with
  | true =>
      simp [-List.all_eq_true, Table.members, Table.kept, Table.fits, hgiven, hcolumns,
        Json.list?_array, ite_bind, ← apply_ite some]
  | false => simp [Table.members, Table.kept, Table.fits, hgiven, ← apply_ite some]

theorem parameterOfJson?_toJson (p : Parameter) : parameterOfJson? p.toJson = some p := by
  simp [parameterOfJson?, Parameter.toJson, record?, Json.required, List.lookup_cons]

namespace Routine

def members (g : Given) (r : Routine) : List Member :=
  [⟨"schemaName", true, ofText r.schema⟩, ⟨"routineName", true, ofText r.name⟩,
    ⟨"routineType", true, ofText r.kind⟩,
    ⟨"parameters", g.parameters, .array (r.parameters.map Parameter.toJson)⟩,
    ⟨"returnType", g.returnType, textOrNull r.returnType⟩]

/-- A routine as an object without the members that are left out. -/
def written (g : Given) (r : Routine) : Json :=
  Json.written (r.members g)

/-- A routine with the defaults for the members that are left out. -/
def kept (g : Given) (r : Routine) : Routine where
  schema := r.schema
  name := r.name
  kind := r.kind
  parameters := if g.parameters then r.parameters else []
  returnType := if g.returnType then r.returnType else none

end Routine

theorem routineOfJson?_written (g : Routine.Given) (r : Routine) :
    routineOfJson? (r.written g) = some (r.kept g) := by
  have hnodup : ((r.members g).map Member.name).Nodup := by simp [Routine.members]
  have hrecord : record? ["schemaName", "routineName", "routineType", "parameters", "returnType"]
      (r.written g) = some (Json.given (r.members g)) := record?_written hnodup
  have hparameters : (r.parameters.map Parameter.toJson).mapM parameterOfJson? =
      some r.parameters := by
    have hread : parameterOfJson? ∘ Parameter.toJson = fun p => pure p :=
      funext parameterOfJson?_toJson
    rw [List.mapM_map, hread, List.mapM_pure, List.map_id']
    rfl
  simp only [routineOfJson?, hrecord, Option.bind_eq_bind, Option.bind_some,
    required_given hnodup, optional_given hnodup]
  simp [Routine.members, Routine.kept, hparameters, Json.list?_array, ← apply_ite some]

/-- Whether the ordinals of all columns are numbers of 32 bits. -/
def fits (s : Schema) : Bool :=
  s.tables.all Table.fits

def members (g : Given) (s : Schema) : List Member :=
  [⟨"databaseName", true, ofText s.database⟩,
    ⟨"tables", g.tables, .array (s.tables.mapIdx fun i t => t.written (g.table i))⟩,
    ⟨"routines", g.routines, .array (s.routines.mapIdx fun i r => r.written (g.routine i))⟩]

/-- A snapshot as an object without the members that are left out. -/
def written (g : Given) (s : Schema) : Json :=
  Json.written (s.members g)

/-- A snapshot with the defaults for the members that are left out. -/
def kept (g : Given) (s : Schema) : Schema where
  database := s.database
  tables := if g.tables then s.tables.mapIdx fun i t => t.kept (g.table i) else []
  routines := if g.routines then s.routines.mapIdx fun i r => r.kept (g.routine i) else []

theorem ofJson?_written (g : Given) (s : Schema) :
    ofJson? (s.written g) = if (s.kept g).fits then some (s.kept g) else none := by
  have hnodup : ((s.members g).map Member.name).Nodup := by simp [Schema.members]
  have hrecord : record? ["databaseName", "tables", "routines"] (s.written g) =
      some (Json.given (s.members g)) := record?_written hnodup
  have htables := mapM_mapIdx Table.fits (fun i => tableOfJson?_written (g.table i)) s.tables
  have hroutines := mapM_mapIdx_some (fun i => routineOfJson?_written (g.routine i)) s.routines
  simp only [ofJson?, hrecord, Option.bind_eq_bind, Option.bind_some, required_given hnodup,
    optional_given hnodup]
  cases hgiven : g.tables with
  | true =>
      simp [-List.all_eq_true, Schema.members, Schema.kept, Schema.fits, hgiven, htables,
        hroutines, Json.list?_array, ite_bind, ← apply_ite some]
  | false =>
      simp [Schema.members, Schema.kept, Schema.fits, hgiven, hroutines, Json.list?_array,
        ← apply_ite some]

/-- All members are written of a column. -/
def Column.Given.all : Column.Given :=
  ⟨true, true, true, true⟩

/-- All members are written of a table. -/
def Table.Given.all : Table.Given :=
  ⟨true, true, fun _ => .all⟩

/-- All members are written. -/
def Given.all : Given :=
  ⟨true, true, fun _ => .all, fun _ => ⟨true, true⟩⟩

theorem mapIdx_const {α β : Type} (f : α → β) (xs : List α) :
    (xs.mapIdx fun _ x => f x) = xs.map f := by
  induction xs with
  | nil => rfl
  | cons x rest ih => rw [List.mapIdx_cons, ih, List.map_cons]

theorem Table.written_all (t : Table) : t.written .all = t.toJson := by
  have hcolumns : (t.columns.mapIdx fun _ c => c.written .all) = t.columns.map Column.toJson :=
    mapIdx_const Column.toJson t.columns
  simp [written, members, Json.written, Json.given, Given.all, hcolumns, toJson]

theorem Table.kept_all (t : Table) : t.kept .all = t := by
  have hcolumns : (t.columns.mapIdx fun _ c => c.kept .all) = t.columns.map id :=
    mapIdx_const id t.columns
  simp [kept, Given.all, hcolumns]

/-- Nothing is left out of a snapshot of which all members are written. -/
theorem written_all (s : Schema) : s.written .all = s.toJson := by
  have htables : (s.tables.mapIdx fun _ t => t.written .all) = s.tables.map Table.toJson := by
    simp only [Table.written_all, mapIdx_const]
  have hroutines : (s.routines.mapIdx fun _ r => r.written ⟨true, true⟩) =
      s.routines.map Routine.toJson := mapIdx_const Routine.toJson s.routines
  simp [written, members, Json.written, Json.given, Given.all, htables, hroutines, toJson]

theorem kept_all (s : Schema) : s.kept .all = s := by
  have htables : (s.tables.mapIdx fun _ t => t.kept .all) = s.tables.map id := by
    simp only [Table.kept_all, mapIdx_const]
    rfl
  have hroutines : (s.routines.mapIdx fun _ r => r.kept ⟨true, true⟩) = s.routines.map id :=
    mapIdx_const id s.routines
  simp [kept, Given.all, htables, hroutines]

/-- A snapshot comes back from its JSON form. Members that have a default may be left out of that
form, of each record other ones: then the snapshot comes back with the defaults in their place. -/
theorem ofJson?_leaving_out (s : Schema) :
    (ofJson? s.toJson = if s.fits then some s else none) ∧
      ∀ g : Given, ofJson? (s.written g) = if (s.kept g).fits then some (s.kept g) else none := by
  refine ⟨?_, fun g => ofJson?_written g s⟩
  rw [← written_all, ofJson?_written, kept_all]

end SqlInsight.Schema
