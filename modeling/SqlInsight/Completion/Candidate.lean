/-
The names offered at a cursor, from what the names in its statement refer to and from the schema.
Without a schema only words of the language and names found in the text are offered.
-/
import SqlInsight.Completion.Context
import SqlInsight.References

namespace SqlInsight.Completion

open Schema (Table Routine)

inductive CandidateKind where
  | keyword
  | cte
  | schema
  | table
  | view
  | column
  | routine
  | database
deriving Repr, DecidableEq

/-- A name that is offered, and what is shown beside it. -/
structure Candidate where
  label : Text
  kind : CandidateKind
  detail : Option Text
deriving Repr, DecidableEq

def offeredWords : List String :=
  ["SELECT", "FROM", "WHERE", "JOIN", "LEFT JOIN", "INNER JOIN", "CROSS APPLY", "ON", "AND", "OR",
    "NOT", "IN", "EXISTS", "BETWEEN", "LIKE", "IS NULL", "AS", "DISTINCT", "TOP", "GROUP BY",
    "HAVING", "ORDER BY", "UNION ALL", "CASE", "WHEN", "THEN", "ELSE", "END", "INSERT INTO",
    "VALUES", "UPDATE", "SET", "DELETE FROM", "WITH", "EXEC", "DECLARE", "USE"]

def tableCandidate (t : Table) : Candidate :=
  ⟨t.name, if t.kind.sameAscii "VIEW".toList then .view else .table, some t.qualifiedName⟩

def columnsOf (schema : Option Schema) (owner : Option Text) (name : Text) : List Text :=
  ((schema.bind fun s => s.table? owner name).map Table.columnNames).getD []

/-- The columns of what an alias stands for: those in the schema for a table, else those that are
known from the text, else those of the table behind it. -/
def bindingColumns (schema : Option Schema) (b : Binding) : List Text :=
  if b.isPhysical then columnsOf schema (some b.schema) b.table
  else if !b.columns.isEmpty then b.columns
  else (b.source.map fun t => columnsOf schema t.schema t.name).getD []

def columnsNamed (r : References) (schema : Option Schema) (name : Text) : List Text :=
  match r.resolve? name with
  | some b => bindingColumns schema b
  | none => columnsOf schema none name

def columnCandidates (detail : Text) (columns : List Text) : List Candidate :=
  columns.map fun c => ⟨c, .column, some detail⟩

def aliasCandidates (schema : Option Schema) (entry : Text × Binding) : List Candidate :=
  let (key, b) := entry
  columnCandidates (key ++ " (".toList ++ b.schema ++ '.' :: b.table ++ [')'])
    (bindingColumns schema b)

/-- Common table expressions in increasing order of their names. -/
def sortedCtes (r : References) : List Binding :=
  (r.ctes.map Prod.snd).mergeSort fun a b => !decide (b.table < a.table)

def tableCandidates (r : References) (schema : Option Schema) : List Candidate :=
  let ctes := (sortedCtes r).map fun b => Candidate.mk b.table .cte (some "CTE".toList)
  let schemas (s : Schema) :=
    s.schemaNames.map fun name => Candidate.mk name .schema (some "schema".toList)
  ctes ++ (schema.map fun s => schemas s ++ s.tables.map tableCandidate).getD []

/-- The candidates among the objects of a schema whose names begin with what is typed, in any
case. -/
def objectCandidates (s : Schema) (owner typed : Text) : List Candidate :=
  let fits (name : Text) := name.lower.startsWith typed.lower
  let routines := s.routines.filter fun r => r.schema.sameAscii owner && fits r.name
  ((s.tablesIn owner).filter fun t => fits t.name).map tableCandidate
    ++ routines.map fun r => ⟨r.name, .routine, some r.kind⟩

def routineCandidate (r : Routine) : Candidate :=
  ⟨r.name, .routine, some (r.schema ++ '.' :: r.name ++ " (".toList ++ r.kind ++ [')'])⟩

/-- Candidates without those whose labels repeat one of `seen` or an earlier one, in any case. -/
def distinctCandidates (seen : List Text) : List Candidate → List Candidate
  | [] => []
  | c :: rest =>
      if c.label.lower ∈ seen then distinctCandidates seen rest
      else c :: distinctCandidates (c.label.lower :: seen) rest

def allCandidates (r : References) (schema : Option Schema) : Context → List Candidate
  | .keyword => offeredWords.map fun word => ⟨word.toList, .keyword, none⟩
  | .table _ => tableCandidates r schema
  | .column _ _ => (References.sortEntries r.aliases).flatMap (aliasCandidates schema)
  | .aliasColumn name => columnCandidates name (columnsNamed r schema name)
  | .schema owner typed => (schema.map fun s => objectCandidates s owner typed).getD []
  | .routine _ => (schema.map fun s => s.routines.map routineCandidate).getD []
  | .database =>
      (schema.map fun s =>
        [Candidate.mk s.database .database (some "database".toList)]).getD []
  | .updateColumn target | .insertColumn target =>
      (target.map fun name => columnCandidates name (columnsNamed r schema name)).getD []

/-- The candidates for what belongs at a cursor; the first one with its label stays. -/
def candidates (r : References) (schema : Option Schema) (c : Context) : List Candidate :=
  distinctCandidates [] (allCandidates r schema c)

end SqlInsight.Completion
