/-
The tables that a statement uses, each with the names of the common table expressions that are
visible where it is used. A common table expression is visible in its own query, in those that
follow it in its list, and in the rest of the query it belongs to. Without what is visible the uses
are the tables that a walk through the whole statement meets, in the same order.
-/
import SqlInsight.Outline.Visit

namespace SqlInsight.Outline

/-- A table where it is used, and the names of the common table expressions visible there, the last
one first. -/
structure TableUse where
  visible : List Text
  table : TableName
deriving Repr, DecidableEq

/-- What is visible behind common table expressions. -/
def visibleBehind (visible : List Text) (ctes : List Cte) : List Text :=
  (ctes.map Cte.name).reverse ++ visible

mutual

def Expression.uses (visible : List Text) : Expression → List TableUse
  | .column _ => []
  | .subquery q => q.uses visible
  | .all parts => usesOfAll visible parts
  | .literal => []

def usesOfAll (visible : List Text) : List Expression → List TableUse
  | [] => []
  | e :: rest => e.uses visible ++ usesOfAll visible rest

/-- The tables that an expression uses, which may be missing. -/
def usesOfOption (visible : List Text) : Option Expression → List TableUse
  | none => []
  | some e => e.uses visible

def Query.uses (visible : List Text) : Query → List TableUse
  | .mk ctes selects order =>
      usesOfCtes visible ctes ++ usesOfSelects (visibleBehind visible ctes) selects
        ++ usesOfAll (visibleBehind visible ctes) order

/-- The tables that common table expressions use. -/
def usesOfCtes (visible : List Text) : List Cte → List TableUse
  | [] => []
  | .mk name _ q :: rest => q.uses (name :: visible) ++ usesOfCtes (name :: visible) rest

/-- The tables that some `SELECT`s use. -/
def usesOfSelects (visible : List Text) : List Select → List TableUse
  | [] => []
  | select :: rest => select.uses visible ++ usesOfSelects visible rest

def Select.uses (visible : List Text) : Select → List TableUse
  | .mk items sources selection groups having =>
      usesOfSources visible sources ++ usesOfItems visible items ++ usesOfOption visible selection
        ++ usesOfAll visible groups ++ usesOfOption visible having

def usesOfItems (visible : List Text) : List Item → List TableUse
  | [] => []
  | .value e _ :: rest => e.uses visible ++ usesOfItems visible rest
  | .star :: rest => usesOfItems visible rest
  | .starOf _ :: rest => usesOfItems visible rest

def usesOfSources (visible : List Text) : List Source → List TableUse
  | [] => []
  | s :: rest => s.uses visible ++ usesOfSources visible rest

def Source.uses (visible : List Text) : Source → List TableUse
  | .mk relation joins => relation.uses visible ++ usesOfJoins visible joins

def usesOfJoins (visible : List Text) : List Join → List TableUse
  | [] => []
  | .mk relation on :: rest =>
      relation.uses visible ++ usesOfOption visible on ++ usesOfJoins visible rest

def Relation.uses (visible : List Text) : Relation → List TableUse
  | .table name _ => [⟨visible, name⟩]
  | .derived q _ => q.uses visible
  | .nested s => s.uses visible
  | .other _ => []

end

def Statement.uses : Statement → List TableUse
  | .select q => q.uses []
  | .insert table _ source =>
      ⟨[], table⟩ :: match source with
        | some q => q.uses []
        | none => []
  | .update table _ _ values selection =>
      table.toList.map (⟨[], ·⟩) ++ usesOfAll [] values ++ usesOfOption [] selection
  | .delete sources selection => usesOfSources [] sources ++ usesOfOption [] selection
  | .other => []

def Visit.table? : Visit → Option TableName
  | .relation (.table name _) => some name
  | _ => none

/-- The tables that a walk through everything meets. -/
def tablesMet (visits : List Visit) : List TableName :=
  visits.filterMap Visit.table?

@[simp] theorem tablesMet_nil : tablesMet [] = [] := rfl

@[simp] theorem tablesMet_append (first second : List Visit) :
    tablesMet (first ++ second) = tablesMet first ++ tablesMet second :=
  List.filterMap_append

@[simp] theorem tablesMet_table (name : TableName) (alias? : Option Text) (rest : List Visit) :
    tablesMet (.relation (.table name alias?) :: rest) = name :: tablesMet rest := rfl

@[simp] theorem tablesMet_derived (q : Query) (alias? : Option Text) (rest : List Visit) :
    tablesMet (.relation (.derived q alias?) :: rest) = tablesMet rest := rfl

@[simp] theorem tablesMet_nested (s : Source) (rest : List Visit) :
    tablesMet (.relation (.nested s) :: rest) = tablesMet rest := rfl

@[simp] theorem tablesMet_other (alias? : Option Text) (rest : List Visit) :
    tablesMet (.relation (.other alias?) :: rest) = tablesMet rest := rfl

@[simp] theorem tablesMet_cte (cte : Cte) (rest : List Visit) :
    tablesMet (.cte cte :: rest) = tablesMet rest := rfl

@[simp] theorem tablesMet_column (column : Column) (rest : List Visit) :
    tablesMet (.column column :: rest) = tablesMet rest := rfl

@[simp] theorem tablesMet_query (q : Query) (rest : List Visit) :
    tablesMet (.query q :: rest) = tablesMet rest := rfl

mutual

theorem Expression.map_table_uses : ∀ (e : Expression) (visible : List Text),
    (e.uses visible).map TableUse.table = tablesMet (e.visits fun _ => true)
  | .column _, _ => by simp [Expression.uses, Expression.visits]
  | .subquery q, visible => by
      simp [Expression.uses, Expression.visits, q.map_table_uses visible]
  | .all parts, visible => by
      simp only [Expression.uses, Expression.visits]
      exact map_table_usesOfAll parts visible
  | .literal, _ => by simp [Expression.uses, Expression.visits]

theorem map_table_usesOfAll : ∀ (es : List Expression) (visible : List Text),
    (usesOfAll visible es).map TableUse.table = tablesMet (visitsOfAll (fun _ => true) es)
  | [], _ => rfl
  | e :: rest, visible => by
      simp only [usesOfAll, visitsOfAll, List.map_append, tablesMet_append]
      rw [e.map_table_uses visible, map_table_usesOfAll rest visible]

theorem map_table_usesOfOption : ∀ (e : Option Expression) (visible : List Text),
    (usesOfOption visible e).map TableUse.table = tablesMet (visitsOfOption (fun _ => true) e)
  | none, _ => by simp [usesOfOption, visitsOfOption]
  | some e, visible => by
      simp only [usesOfOption, visitsOfOption]
      exact e.map_table_uses visible

theorem Query.map_table_uses : ∀ (q : Query) (visible : List Text),
    (q.uses visible).map TableUse.table = tablesMet (q.visits fun _ => true)
  | .mk ctes selects order, visible => by
      simp only [Query.uses, Query.visits, List.map_append, tablesMet_append]
      rw [map_table_usesOfCtes ctes, map_table_usesOfSelects selects, map_table_usesOfAll order]

theorem map_table_usesOfCtes : ∀ (ctes : List Cte) (visible : List Text),
    (usesOfCtes visible ctes).map TableUse.table = tablesMet (visitsOfCtes (fun _ => true) ctes)
  | [], _ => rfl
  | .mk name _ q :: rest, visible => by
      simp only [usesOfCtes, visitsOfCtes, List.map_append, tablesMet_cte, tablesMet_query,
        tablesMet_append, ↓reduceIte]
      rw [q.map_table_uses, map_table_usesOfCtes rest]

theorem map_table_usesOfSelects : ∀ (selects : List Select) (visible : List Text),
    (usesOfSelects visible selects).map TableUse.table =
      tablesMet (visitsOfSelects (fun _ => true) selects)
  | [], _ => rfl
  | .mk items sources selection groups having :: rest, visible => by
      simp only [usesOfSelects, Select.uses, visitsOfSelects, List.map_append, tablesMet_append]
      rw [map_table_usesOfSources sources, map_table_usesOfItems items,
        map_table_usesOfOption selection, map_table_usesOfAll groups,
        map_table_usesOfOption having, map_table_usesOfSelects rest]

theorem map_table_usesOfItems : ∀ (items : List Item) (visible : List Text),
    (usesOfItems visible items).map TableUse.table = tablesMet (visitsOfItems (fun _ => true) items)
  | [], _ => rfl
  | .value e _ :: rest, visible => by
      simp only [usesOfItems, visitsOfItems, List.map_append, tablesMet_append]
      rw [e.map_table_uses, map_table_usesOfItems rest]
  | .star :: rest, visible => by
      simp only [usesOfItems, visitsOfItems]
      exact map_table_usesOfItems rest visible
  | .starOf _ :: rest, visible => by
      simp only [usesOfItems, visitsOfItems]
      exact map_table_usesOfItems rest visible

theorem map_table_usesOfSources : ∀ (sources : List Source) (visible : List Text),
    (usesOfSources visible sources).map TableUse.table =
      tablesMet (visitsOfSources (fun _ => true) sources)
  | [], _ => rfl
  | s :: rest, visible => by
      simp only [usesOfSources, visitsOfSources, List.map_append, tablesMet_append]
      rw [s.map_table_uses, map_table_usesOfSources rest]

theorem Source.map_table_uses : ∀ (s : Source) (visible : List Text),
    (s.uses visible).map TableUse.table = tablesMet (s.visits fun _ => true)
  | .mk relation joins, visible => by
      simp only [Source.uses, Source.visits, List.map_append, tablesMet_append]
      rw [relation.map_table_uses, map_table_usesOfJoins joins]

theorem map_table_usesOfJoins : ∀ (joins : List Join) (visible : List Text),
    (usesOfJoins visible joins).map TableUse.table = tablesMet (visitsOfJoins (fun _ => true) joins)
  | [], _ => rfl
  | .mk relation on :: rest, visible => by
      simp only [usesOfJoins, visitsOfJoins, List.map_append, tablesMet_append]
      rw [relation.map_table_uses, map_table_usesOfOption on, map_table_usesOfJoins rest]

theorem Relation.map_table_uses : ∀ (r : Relation) (visible : List Text),
    (r.uses visible).map TableUse.table = tablesMet (r.visits fun _ => true)
  | .table _ _, _ => by simp [Relation.uses, Relation.visits]
  | .derived q _, visible => by
      simp [Relation.uses, Relation.visits, q.map_table_uses visible]
  | .nested s, visible => by
      simp [Relation.uses, Relation.visits, s.map_table_uses visible]
  | .other _, _ => by simp [Relation.uses, Relation.visits]

end

/-- The tables that a statement uses are those that a walk through all of it meets. -/
theorem Statement.map_table_uses (s : Statement) :
    s.uses.map TableUse.table = tablesMet (s.visits fun _ => true) := by
  cases s with
  | select q => exact q.map_table_uses []
  | insert table columns source =>
      cases source with
      | none => rfl
      | some q => simp [Statement.uses, Statement.visits, q.map_table_uses []]
  | update table alias? assigned values selection =>
      cases table <;>
        simp [Statement.uses, Statement.visits, map_table_usesOfAll, map_table_usesOfOption]
  | delete sources selection =>
      simp [Statement.uses, Statement.visits, map_table_usesOfSources, map_table_usesOfOption]
  | other => rfl

end SqlInsight.Outline
