/-
Drawing the outline of a syntax tree. An expression keeps the columns and the queries in it, with
two exceptions: variables, which begin with an at sign, are no columns, and neither is the first
argument of a function that takes a part of a date there.
-/
import SqlInsight.Grammar.Tree
import SqlInsight.Grammar.Parser.TypeName
import SqlInsight.Name.Quoting
import SqlInsight.Outline

namespace SqlInsight.Outline

open Grammar (Ident ObjectName)

/-- The functions whose first argument is a part of a date. -/
def datePartFunctions : List String :=
  ["DATEADD", "DATEDIFF", "DATEDIFF_BIG", "DATENAME", "DATEPART", "DATETRUNC"]

def nameOf (name : Ident) : Text :=
  name.value.toList

def aliasOf (given : Grammar.Alias) : Text :=
  nameOf given.name

def lastPart (name : ObjectName) : Text :=
  match name.getLast? with
  | some part => nameOf part
  | none => []

def tableOf (name : ObjectName) : TableName :=
  (TableName.ofParts? (name.map nameOf)).getD ⟨none, []⟩

def isVariable (name : Ident) : Bool :=
  (nameOf name).head? == some '@'

def compoundOf (parts : ObjectName) : Expression :=
  match parts.reverse with
  | name :: qualifier :: _ =>
      if isVariable qualifier then .literal
      else .column ⟨some (nameOf qualifier), nameOf name⟩
  | _ => .literal

/-- Whether the first argument of a function is left out. -/
def skipsFirst (name : ObjectName) : Bool :=
  datePartFunctions.any fun f => f.toList == Text.upper (lastPart name)

mutual

def ofExpr : Grammar.Expr → Expression
  | .identifier name => if isVariable name then .literal else .column ⟨none, nameOf name⟩
  | .compound parts => compoundOf parts
  | .literal => .literal
  | .binary left _ right => .all [ofExpr left, ofExpr right]
  | .quantified _ _ _ => .literal
  | .unary _ operand => ofExpr operand
  | .nested inner => ofExpr inner
  | .test subject asked =>
      match asked with
      | .isNull | .isNotNull | .isTrue | .isFalse => ofExpr subject
      | _ => .literal
  | .distinct _ _ => .literal
  | .cast operand => ofExpr operand
  | .convert _ _ => .literal
  | .collate operand => ofExpr operand
  | .inList subject items => .all (ofExpr subject :: ofExprs items)
  | .inQuery subject query => .all [ofExpr subject, .subquery (ofQuery query)]
  | .inUnnest _ _ => .literal
  | .subquery query => .subquery (ofQuery query)
  | .exists query => .subquery (ofQuery query)
  | .between subject low high => .all [ofExpr subject, ofExpr low, ofExpr high]
  | .pattern kind subject form =>
      match kind with
      | .like | .ilike => .all [ofExpr subject, ofExpr form]
      | _ => .literal
  | .case operand conditions results otherwise =>
      .all ((ofOption operand).toList ++ ofExprs conditions ++ ofExprs results
        ++ (ofOption otherwise).toList)
  | .tuple items => .all (ofExprs items)
  | .call name _ arguments _ window =>
      .all (ofArguments (skipsFirst name) arguments ++ ofWindow window)
  | .special _ _ => .literal

def ofExprs : List Grammar.Expr → List Expression
  | [] => []
  | e :: rest => ofExpr e :: ofExprs rest

def ofOption : Option Grammar.Expr → Option Expression
  | none => none
  | some e => some (ofExpr e)

/-- The outlines of the arguments of a call; the first of them may be left out. -/
def ofArguments : (skips : Bool) → List Grammar.Argument → List Expression
  | _, [] => []
  | true, .query query :: rest => .subquery (ofQuery query) :: ofArguments false rest
  | true, _ :: rest => ofArguments false rest
  | false, .positional e :: rest => ofExpr e :: ofArguments false rest
  | false, .named _ e :: rest => ofExpr e :: ofArguments false rest
  | false, .labelled _ _ :: rest => ofArguments false rest
  | false, .query query :: rest => .subquery (ofQuery query) :: ofArguments false rest
  | false, .wildcard :: rest => ofArguments false rest

/-- The outlines of what the rows of a call are partitioned and ordered by, if that is said. -/
def ofWindow : Option Grammar.Window → List Expression
  | none => []
  | some (.mk partition order _) => ofExprs partition ++ ofOrder order

def ofOrder : List Grammar.OrderItem → List Expression
  | [] => []
  | .mk e _ :: rest => ofExpr e :: ofOrder rest

def ofQuery : Grammar.Query → Query
  | .mk ctes body order => .mk (ofCtes ctes) (ofBody body) (ofOrder order)

/-- The outlines of common table expressions. -/
def ofCtes : List Grammar.Cte → List Cte
  | [] => []
  | .mk name columns query :: rest =>
      .mk (nameOf name) (columns.map fun c => Name.unquote c.toList) (ofQuery query)
        :: ofCtes rest

/-- The `SELECT`s of the body of a query, in order. -/
def ofBody : Grammar.Body → List Select
  | .select select => [ofSelect select]
  | .query query => (ofQuery query).selects
  | .operation left right => ofBody left ++ ofBody right
  | .values _ => []
  | .other => []

def ofSelect : Grammar.Select → Select
  | .mk items sources selection groups having =>
      .mk (ofItems items) (ofSources sources) (ofOption selection) (ofExprs groups)
        (ofOption having)

def ofItems : List Grammar.Item → List Item
  | [] => []
  | .plain e :: rest => .value (ofExpr e) none :: ofItems rest
  | .aliased e name :: rest => .value (ofExpr e) (some (nameOf name)) :: ofItems rest
  | .wildcard :: rest => .star :: ofItems rest
  | .qualifiedWildcard name :: rest => .starOf (lastPart name) :: ofItems rest

def ofSources : List Grammar.Source → List Source
  | [] => []
  | s :: rest => ofSource s :: ofSources rest

def ofSource : Grammar.Source → Source
  | .mk factor joins => .mk (ofFactor factor) (ofJoins joins)

/-- The outlines of some joins. Only those that match rows by a condition keep it. -/
def ofJoins : List Grammar.Join → List Join
  | [] => []
  | .mk factor kind on :: rest =>
      let condition :=
        match kind with
        | .inner | .leftOuter | .rightOuter | .fullOuter => ofOption on
        | _ => none
      .mk (ofFactor factor) condition :: ofJoins rest

def ofFactor : Grammar.Factor → Relation
  | .table name alias? isCall =>
      if isCall then .other (alias?.map aliasOf) else .table (tableOf name) (alias?.map aliasOf)
  | .derived query alias? => .derived (ofQuery query) (alias?.map aliasOf)
  | .nested source => .nested (ofSource source)
  | .other _ => .other none

end

def ofStatement : Grammar.Statement → Statement
  | .query query => .select (ofQuery query)
  | .insert table columns source =>
      .insert (tableOf table) (columns.map nameOf) (source.map ofQuery)
  | .update (.mk target _) assignments selection =>
      let (table, alias?) :=
        match target with
        | .table name alias? _ => (some (tableOf name), alias?.map aliasOf)
        | _ => (none, none)
      .update table alias? (assignments.flatMap fun a => a.targets.map lastPart)
        (assignments.map fun a => ofExpr a.value) (selection.map ofExpr)
  | .delete sources selection => .delete (ofSources sources) (selection.map ofExpr)
  | .other => .other

end SqlInsight.Outline
