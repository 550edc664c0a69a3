/-
The outline of a statement: of its syntax only the tables, the columns, the queries nested in it and
how they are named. Set operations are flattened into the list of their `SELECT`s.
-/
import SqlInsight.Text.Basic

namespace SqlInsight.Outline

structure TableName where
  schema : Option Text
  name : Text
deriving Repr, DecidableEq, Inhabited

/-- A column, perhaps qualified by a table or an alias. -/
structure Column where
  qualifier : Option Text
  name : Text
deriving Repr, DecidableEq, Inhabited

mutual

/-- An expression, as far as names occur in it. -/
inductive Expression where
  | column (column : Column)
  | subquery (query : Query)
  | all (parts : List Expression)
  | literal

/-- A query: its common table expressions, its `SELECT`s, and what it is ordered by. -/
inductive Query where
  | mk (ctes : List Cte) (selects : List Select) (order : List Expression)

/-- A common table expression: its name, its own column names if it lists them, and its query. -/
inductive Cte where
  | mk (name : Text) (columns : List Text) (query : Query)

inductive Select where
  | mk (items : List Item) (sources : List Source) (selection : Option Expression)
      (groups : List Expression) (having : Option Expression)

inductive Item where
  | star
  | starOf (qualifier : Text)
  | value (expression : Expression) (alias? : Option Text)

/-- An item of a `FROM` list: a relation, and those joined to it. -/
inductive Source where
  | mk (relation : Relation) (joins : List Join)

inductive Join where
  | mk (relation : Relation) (on : Option Expression)

inductive Relation where
  | table (name : TableName) (alias? : Option Text)
  | derived (query : Query) (alias? : Option Text)
  | nested (source : Source)
  | other (alias? : Option Text)

end

/-- A statement. An update keeps the columns it sets apart from the values it sets them to. -/
inductive Statement where
  | select (query : Query)
  | insert (table : TableName) (columns : List Text) (source : Option Query)
  | update (table : Option TableName) (alias? : Option Text) (assigned : List Text)
      (values : List Expression) (selection : Option Expression)
  | delete (sources : List Source) (selection : Option Expression)
  | other

instance : Inhabited Expression := ⟨.literal⟩

instance : Inhabited Query := ⟨.mk [] [] []⟩

namespace TableName

/-- The table that the last one or two of the parts of a dotted name are about. -/
def ofParts? (parts : List Text) : Option TableName :=
  match parts.reverse with
  | [] => none
  | name :: rest => some ⟨rest.head?, name⟩

def render (t : TableName) : Text :=
  match t.schema with
  | some schema => schema ++ '.' :: t.name
  | none => t.name

/-- Whether the table belongs to the session: a temporary one or a variable. -/
def isSession (t : TableName) : Bool :=
  t.name.head? == some '#' || t.name.head? == some '@'

end TableName

namespace Query

/-- The common table expressions of a query. -/
def ctes : Query → List Cte
  | mk ctes _ _ => ctes

def selects : Query → List Select
  | mk _ selects _ => selects

def order : Query → List Expression
  | mk _ _ order => order

end Query

namespace Cte

/-- The name of a common table expression. -/
def name : Cte → Text
  | mk name _ _ => name

/-- The columns that a common table expression lists. -/
def columns : Cte → List Text
  | mk _ columns _ => columns

/-- The query of a common table expression. -/
def query : Cte → Query
  | mk _ _ query => query

end Cte

namespace Select

def items : Select → List Item
  | mk items _ _ _ _ => items

def sources : Select → List Source
  | mk _ sources _ _ _ => sources

def selection : Select → Option Expression
  | mk _ _ selection _ _ => selection

def groups : Select → List Expression
  | mk _ _ _ groups _ => groups

def having : Select → Option Expression
  | mk _ _ _ _ having => having

end Select

namespace Source

/-- The first relation of an item of a `FROM` list. -/
def relation : Source → Relation
  | mk relation _ => relation

def joins : Source → List Join
  | mk _ joins => joins

end Source

namespace Join

def relation : Join → Relation
  | mk relation _ => relation

def on : Join → Option Expression
  | mk _ on => on

end Join

/-- The relations of an item of a `FROM` list, in the order they are written. -/
def Source.relations (s : Source) : List Relation :=
  s.relation :: s.joins.map Join.relation

/-- Whether an item stands for several columns. -/
def Item.isStar : Item → Bool
  | star | starOf _ => true
  | value _ _ => false

/-- The name that an item gives to its column, if it gives one. -/
def Item.outputName? : Item → Option Text
  | value _ (some name) => some name
  | value (.column c) none => some c.name
  | _ => none

def Select.hasStar (s : Select) : Bool :=
  s.items.any Item.isStar

/-- The names of the columns of a query, as its first `SELECT` gives them. -/
def Query.outputColumns (q : Query) : List Text :=
  match q.selects with
  | [] => []
  | first :: _ => first.items.filterMap Item.outputName?

def Statement.kind : Statement → String
  | select _ => "SELECT"
  | insert _ _ _ => "INSERT"
  | update _ _ _ _ _ => "UPDATE"
  | delete _ _ => "DELETE"
  | other => "OTHER"

mutual

/-- The columns of an expression, leaving out those of the queries in it. -/
def Expression.columns : Expression → List Column
  | .column c => [c]
  | .subquery _ => []
  | .all parts => columnsOfAll parts
  | .literal => []

def columnsOfAll : List Expression → List Column
  | [] => []
  | e :: rest => e.columns ++ columnsOfAll rest

end

mutual

/-- The queries that stand directly in an expression. -/
def Expression.subqueries : Expression → List Query
  | .column _ => []
  | .subquery q => [q]
  | .all parts => subqueriesOfAll parts
  | .literal => []

/-- The queries that stand directly in some expressions. -/
def subqueriesOfAll : List Expression → List Query
  | [] => []
  | e :: rest => e.subqueries ++ subqueriesOfAll rest

end

end SqlInsight.Outline
