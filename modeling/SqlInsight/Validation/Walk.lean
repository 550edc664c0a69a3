/-
The check of a whole statement. A query brings its common table expressions into sight one by
one; a `SELECT` opens a scope with what its `FROM` list binds, and every name below it is looked
up in the scopes that are open.
-/
import SqlInsight.Validation.Checker

namespace SqlInsight.Validation

open Outline (Query Cte Select Item Source Join Relation Expression)

def aliasesOf (items : List Item) : List Text :=
  items.filterMap fun
    | .value _ alias? => alias?
    | _ => none

namespace Checker

/-- Check the columns of an expression that lie outside its queries. -/
def checkColumns (aliases : List Text) (c : Checker) (e : Expression) : Checker :=
  e.columns.foldl (checkColumn aliases) c

/-- End the check of a `SELECT`. Only in the query that is the statement a star is worth an
advice, and only if its tables are known. -/
def endSelect (isOutermost : Bool) (c : Checker) (select : Select) : Checker :=
  let c := c.leave
  if isOutermost && c.settings.selectStar && !select.sources.isEmpty && select.hasStar
      && sourcesResolve c.names select.sources then
    c.adviseStar
  else c

mutual

def checkQuery (isOutermost : Bool) (c : Checker) : Query → Checker
  | .mk ctes [select] order =>
      let c' := beginSelect (checkCtes c ctes) select
      let c' := endSelect isOutermost (checkAll (aliasesOf select.items) c' order) select
      c'.forget c.names.ctes.length
  | .mk ctes selects order =>
      let c' := checkNestedAll (checkSelects isOutermost (checkCtes c ctes) selects) order
      c'.forget c.names.ctes.length

/-- Check common table expressions, and bring each into sight. A body sees itself with the columns
that it lists. -/
def checkCtes (c : Checker) : List Cte → Checker
  | [] => c
  | .mk name columns query :: rest =>
      let listed := if columns.isEmpty then none else some columns
      let count := c.names.ctes.length
      let c := (checkQuery false (c.declare ⟨name, listed⟩) query).forget count
      checkCtes (c.declare ⟨name, listed.or (queryColumns? c.names query)⟩) rest

/-- Check some `SELECT`s, each in a scope of its own. -/
def checkSelects (isOutermost : Bool) (c : Checker) : List Select → Checker
  | [] => c
  | select :: rest =>
      checkSelects isOutermost (endSelect isOutermost (beginSelect c select) select) rest

/-- Open the scope of a `SELECT` and check everything in it. -/
def beginSelect (c : Checker) : Select → Checker
  | .mk items sources selection groups having =>
      let c := (checkSources c sources).enter (scopeOfSources c.names sources)
      let c := checkItems (checkJoined c sources) items
      checkOption (checkAll [] (checkOption c selection) groups) having

/-- Check that the tables of a `FROM` list are not missing, and its derived tables. -/
def checkSources (c : Checker) : List Source → Checker
  | [] => c
  | s :: rest => checkSources (checkSource c s) rest

/-- Check that the tables of an item of a `FROM` list are not missing, and its derived tables. -/
def checkSource (c : Checker) : Source → Checker
  | .mk relation joins => checkJoins (checkRelation c relation) joins

/-- Check that the tables of some joins are not missing, and their derived tables. -/
def checkJoins (c : Checker) : List Join → Checker
  | [] => c
  | .mk relation _ :: rest => checkJoins (checkRelation c relation) rest

/-- Check that a table is not missing, or check a derived table. -/
def checkRelation (c : Checker) : Relation → Checker
  | .table name _ => c.checkTable name
  | .derived query _ => checkQuery false c query
  | .nested source => checkSource c source
  | .other _ => c

def checkJoined (c : Checker) : List Source → Checker
  | [] => c
  | s :: rest => checkJoined (checkConditions c s) rest

def checkConditions (c : Checker) : Source → Checker
  | .mk relation joins => checkJoinConditions (checkGroup c relation) joins

def checkJoinConditions (c : Checker) : List Join → Checker
  | [] => c
  | .mk relation on :: rest => checkJoinConditions (checkOption (checkGroup c relation) on) rest

def checkGroup (c : Checker) : Relation → Checker
  | .nested source => checkConditions c source
  | .table _ _ | .derived _ _ | .other _ => c

def checkItems (c : Checker) : List Item → Checker
  | [] => c
  | .value e _ :: rest => checkItems (checkNested (checkColumns [] c e) e) rest
  | .star :: rest => checkItems c rest
  | .starOf _ :: rest => checkItems c rest

/-- Check an expression that may be missing: first its columns, then the queries in it. -/
def checkOption (c : Checker) : Option Expression → Checker
  | none => c
  | some e => checkNested (checkColumns [] c e) e

/-- Check some expressions, each with its columns first; the names of `aliases` stand for
themselves. -/
def checkAll (aliases : List Text) (c : Checker) : List Expression → Checker
  | [] => c
  | e :: rest => checkAll aliases (checkNested (checkColumns aliases c e) e) rest

def checkNested (c : Checker) : Expression → Checker
  | .subquery query => checkQuery false c query
  | .all parts => checkNestedAll c parts
  | .column _ | .literal => c

def checkNestedAll (c : Checker) : List Expression → Checker
  | [] => c
  | e :: rest => checkNestedAll (checkNested c e) rest

end

/-- Whether the word `FROM` stands outside parentheses in a text after `before`, which is given in
reverse; `depth` is how many more parentheses have been opened than closed. -/
def hasOuterFrom (depth : Int) (before : Text) : Text → Bool
  | [] => false
  | c :: rest =>
      (depth == 0 && Text.wordAt "FROM".toList before (c :: rest))
        || hasOuterFrom (if c = '(' then depth + 1 else if c = ')' then depth - 1 else depth)
          (c :: before) rest

/-- Whether an update takes its rows from a `FROM` list of its own. -/
def updatesFrom (t : Text) : Bool :=
  let masked := t.mask .identifiers
  match masked.findWord "SET".toList 0 with
  | some set => hasOuterFrom 0 (masked.takeBytes set).reverse (masked.dropBytes set)
  | none => false

/-- Check the columns that a statement names of its target, if that is a known table. -/
def checkTargets (c : Checker) (meaning : Option Meaning) (columns : List Text) : Checker :=
  match meaning.bind Meaning.table? with
  | some t => columns.foldl (checkTarget t) c
  | none => c

/-- Check a statement that has that text. The names in an update with a `FROM` list of its own are
not checked. -/
def checkStatement (c : Checker) (t : Text) : Outline.Statement → Checker
  | .select query => checkQuery true c query
  | .insert table columns source =>
      let c := (c.checkTable table).checkTargets (c.names.meaning? table) columns
      match source with
      | some query => checkQuery false c query
      | none => c
  | .update table alias? assigned values selection =>
      let checked :=
        if updatesFrom t then c
        else
          let target := table.toList.map fun name => Relation.table name alias?
          let scope := target.flatMap (scopeOfRelation c.names)
          let c := target.foldl checkRelation c
          let c := (c.checkTargets (scope.head?.map Bound.meaning) assigned).enter scope
          (checkOption (checkAll [] c values) selection).leave
      if selection.isNone && c.settings.missingWhere then checked.adviseUpdate table else checked
  | .delete sources selection =>
      let c' := (checkSources c sources).enter (scopeOfSources c.names sources)
      let c' := (checkOption (checkJoined c' sources) selection).leave
      if selection.isNone && c.settings.missingWhere then c'.adviseDelete else c'
  | .other => c

end Checker

end SqlInsight.Validation
