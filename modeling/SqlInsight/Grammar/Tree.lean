/-
The tree of a SQL text as the grammar reads it: queries, their clauses and the expressions in them,
and the statements built from these. Of an expression every part that may name a column is kept, in
the order in which it is written.
-/
namespace SqlInsight.Grammar

/-- A name, and the quote it was written with. -/
structure Ident where
  value : String
  quote : Option Char
deriving Repr, DecidableEq, Inhabited

/-- A name of one or more parts joined by dots. -/
abbrev ObjectName := List Ident

/-- The name given to a relation, and those of its columns as they were written. -/
structure Alias where
  name : Ident
  columns : List String
deriving Repr, DecidableEq, Inhabited

/-- What `IS` asks about a value. -/
inductive Test where
  | isNull
  | isNotNull
  | isTrue
  | isNotTrue
  | isFalse
  | isNotFalse
  | isUnknown
  | isNotUnknown
deriving Repr, DecidableEq

/-- The pattern operators. -/
inductive Pattern where
  | like
  | ilike
  | similar
  | regexp
deriving Repr, DecidableEq

/-- How a joined relation is matched with what stands before it. -/
inductive JoinKind where
  | inner
  | leftOuter
  | rightOuter
  | fullOuter
  | cross
  | crossApply
  | outerApply
  | semi
  | anti
  | asOf
deriving Repr, DecidableEq

mutual

/-- An expression. -/
inductive Expr where
  | identifier (name : Ident)
  | compound (parts : ObjectName)
  | literal
  | binary (left : Expr) (operator : String) (right : Expr)
  | quantified (left : Expr) (operator : String) (right : Expr)
  | unary (operator : String) (operand : Expr)
  | nested (inner : Expr)
  | test (subject : Expr) (asked : Test)
  | distinct (left right : Expr)
  | cast (operand : Expr)
  | convert (operand : Expr) (styles : List Expr)
  | collate (operand : Expr)
  | inList (subject : Expr) (items : List Expr)
  | inQuery (subject : Expr) (query : Query)
  | inUnnest (subject array : Expr)
  | subquery (query : Query)
  | exists (query : Query)
  | between (subject low high : Expr)
  | pattern (kind : Pattern) (subject form : Expr)
  | case (operand : Option Expr) (conditions results : List Expr) (otherwise : Option Expr)
  | tuple (items : List Expr)
  | call (name : ObjectName) (parameters : List Expr) (arguments : List Argument)
      (clauses : List Expr) (window : Option Window)
  | special (form : String) (parts : List Expr)

/-- An argument of a function call. -/
inductive Argument where
  | positional (value : Expr)
  | named (name : Ident) (value : Expr)
  | labelled (label value : Expr)
  | query (query : Query)
  | wildcard

/-- The rows that a call ranges over: what they are partitioned by, their order, and the bounds of
the frame. -/
inductive Window where
  | mk (partition : List Expr) (order : List OrderItem) (frame : List Expr)

/-- An item of an `ORDER BY` list, and how missing rows are filled in there. -/
inductive OrderItem where
  | mk (value : Expr) (filling : List Expr)

/-- A query: its common table expressions, its body, and what it is ordered by. -/
inductive Query where
  | mk (ctes : List Cte) (body : Body) (order : List OrderItem)

/-- A common table expression: its name, its columns as they were written, and its query. -/
inductive Cte where
  | mk (name : Ident) (columns : List String) (query : Query)

/-- The body of a query. -/
inductive Body where
  | select (select : Select)
  | query (query : Query)
  | operation (left right : Body)
  | values (entries : List Expr)
  | other

/-- A `SELECT` with its clauses. -/
inductive Select where
  | mk (items : List Item) (sources : List Source) (selection : Option Expr)
      (groups : List Expr) (having : Option Expr)

/-- An item of a `SELECT` list. -/
inductive Item where
  | plain (value : Expr)
  | aliased (value : Expr) (name : Ident)
  | wildcard
  | qualifiedWildcard (name : ObjectName)

/-- An item of a `FROM` list: a relation and those joined to it. -/
inductive Source where
  | mk (factor : Factor) (joins : List Join)

/-- A joined relation. -/
inductive Join where
  | mk (factor : Factor) (kind : JoinKind) (on : Option Expr)

/-- A relation of a `FROM` list. -/
inductive Factor where
  | table (name : ObjectName) (alias? : Option Alias) (isCall : Bool)
  | derived (query : Query) (alias? : Option Alias)
  | nested (source : Source)
  | other (alias? : Option Alias)

end

def OrderItem.parts : OrderItem → List Expr
  | mk value filling => value :: filling

def Argument.parts : Argument → List Expr
  | positional e | named _ e => [e]
  | labelled label e => [label, e]
  | query q => [.subquery q]
  | wildcard => []

/-- A column assignment: the columns assigned to, and the value. -/
structure Assignment where
  targets : List ObjectName
  value : Expr

/-- A statement. Of those that neither read nor change rows nothing is kept. -/
inductive Statement where
  | query (query : Query)
  | insert (table : ObjectName) (columns : List Ident) (source : Option Query)
  | update (target : Source) (assignments : List Assignment) (selection : Option Expr)
  | delete (sources : List Source) (selection : Option Expr)
  | other

instance : Inhabited Expr := ⟨.literal⟩

instance : Inhabited Query := ⟨.mk [] .other []⟩

end SqlInsight.Grammar
