/-
What one meets on a walk through a statement, in order. A query is met before what is in it, and a
walk may pass it by; the common table expressions of a query come before its `SELECT`s, and the
`FROM` list of a `SELECT` before its items.
-/
import SqlInsight.Outline

namespace SqlInsight.Outline

/-- Something that a walk meets: a nested query is met where the walk asks whether to enter it. -/
inductive Visit where
  | cte (cte : Cte)
  | relation (relation : Relation)
  | column (column : Column)
  | query (query : Query)

variable (enters : Query → Bool)

mutual

/-- What a walk through an expression meets. -/
def Expression.visits : Expression → List Visit
  | .column c => [.column c]
  | .subquery q => .query q :: if enters q then q.visits else []
  | .all parts => visitsOfAll parts
  | .literal => []

/-- What a walk through some expressions meets. -/
def visitsOfAll : List Expression → List Visit
  | [] => []
  | e :: rest => e.visits ++ visitsOfAll rest

/-- What a walk through an expression meets that may be missing. -/
def visitsOfOption : Option Expression → List Visit
  | none => []
  | some e => e.visits

/-- What a walk through a query meets. -/
def Query.visits : Query → List Visit
  | .mk ctes selects order => visitsOfCtes ctes ++ visitsOfSelects selects ++ visitsOfAll order

/-- What a walk through common table expressions meets. -/
def visitsOfCtes : List Cte → List Visit
  | [] => []
  | .mk name columns q :: rest =>
      .cte (.mk name columns q) :: .query q
        :: ((if enters q then q.visits else []) ++ visitsOfCtes rest)

/-- What a walk through some `SELECT`s meets. -/
def visitsOfSelects : List Select → List Visit
  | [] => []
  | .mk items sources selection groups having :: rest =>
      visitsOfSources sources ++ visitsOfItems items ++ visitsOfOption selection
        ++ visitsOfAll groups ++ visitsOfOption having ++ visitsOfSelects rest

/-- What a walk through the items of a `SELECT` meets. -/
def visitsOfItems : List Item → List Visit
  | [] => []
  | .value e _ :: rest => e.visits ++ visitsOfItems rest
  | .star :: rest => visitsOfItems rest
  | .starOf _ :: rest => visitsOfItems rest

/-- What a walk through a `FROM` list meets. -/
def visitsOfSources : List Source → List Visit
  | [] => []
  | s :: rest => s.visits ++ visitsOfSources rest

/-- What a walk through an item of a `FROM` list meets. -/
def Source.visits : Source → List Visit
  | .mk relation joins => relation.visits ++ visitsOfJoins joins

/-- What a walk through some joins meets. -/
def visitsOfJoins : List Join → List Visit
  | [] => []
  | .mk relation on :: rest => relation.visits ++ visitsOfOption on ++ visitsOfJoins rest

/-- What a walk through a relation meets, which is the relation first. -/
def Relation.visits : Relation → List Visit
  | .table name alias? => [.relation (.table name alias?)]
  | .derived q alias? =>
      .relation (.derived q alias?) :: .query q :: if enters q then q.visits else []
  | .nested s => .relation (.nested s) :: s.visits
  | .other alias? => [.relation (.other alias?)]

end

/-- What a walk through a statement meets. The outermost query is entered without asking. -/
def Statement.visits : Statement → List Visit
  | .select q => q.visits enters
  | .insert table _ source =>
      .relation (.table table none)
        :: match source with
          | some q => .query q :: if enters q then q.visits enters else []
          | none => []
  | .update table alias? _ values selection =>
      (match table with
        | some name => [.relation (.table name alias?)]
        | none => [])
        ++ visitsOfAll enters values ++ visitsOfOption enters selection
  | .delete sources selection => visitsOfSources enters sources ++ visitsOfOption enters selection
  | .other => []

end SqlInsight.Outline
