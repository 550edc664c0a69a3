/-
The two walks through an expression. A visitor is told of what a walk meets and decides which
queries the walk enters; the collector takes the columns of one expression and leaves the queries in
it to others. A walk that enters no query meets just what the collector takes, in its order, and
every other walk is this one with more put in behind the queries that are entered. So a walk through
everything meets the columns that are collected and those in the collected queries, each as often as
it is written.
-/
import Mathlib.Data.List.Flatten
import SqlInsight.Outline.Visit

namespace SqlInsight.Outline

/-- What is done with that which a walk meets, and which of the queries that are met it enters; both
may depend on what the walk has met before. -/
structure Visitor (σ : Type) where
  meet : σ → Visit → σ
  enters : σ → Query → Bool

section Walk

variable {σ : Type} (v : Visitor σ)

mutual

def Expression.walk (s : σ) : Expression → σ
  | .column c => v.meet s (.column c)
  | .subquery q =>
      if v.enters s q then q.walk (v.meet s (.query q)) else v.meet s (.query q)
  | .all parts => walkAll s parts
  | .literal => s

/-- Walk through some expressions. -/
def walkAll (s : σ) : List Expression → σ
  | [] => s
  | e :: rest => walkAll (e.walk s) rest

/-- Walk through an expression that may be missing. -/
def walkOption (s : σ) : Option Expression → σ
  | none => s
  | some e => e.walk s

/-- Walk through a query: first its common table expressions, then its `SELECT`s, then what it is
ordered by. -/
def Query.walk (s : σ) : Query → σ
  | .mk ctes selects order => walkAll (walkSelects (walkCtes s ctes) selects) order

/-- Walk through common table expressions. -/
def walkCtes (s : σ) : List Cte → σ
  | [] => s
  | .mk name columns q :: rest =>
      let s := v.meet s (.cte (.mk name columns q))
      walkCtes (if v.enters s q then q.walk (v.meet s (.query q)) else v.meet s (.query q)) rest

/-- Walk through some `SELECT`s. -/
def walkSelects (s : σ) : List Select → σ
  | [] => s
  | .mk items sources selection groups having :: rest =>
      let s := walkOption (walkItems (walkSources s sources) items) selection
      walkSelects (walkOption (walkAll s groups) having) rest

/-- Walk through the items of a `SELECT`. -/
def walkItems (s : σ) : List Item → σ
  | [] => s
  | .value e _ :: rest => walkItems (e.walk s) rest
  | .star :: rest => walkItems s rest
  | .starOf _ :: rest => walkItems s rest

def walkSources (s : σ) : List Source → σ
  | [] => s
  | source :: rest => walkSources (source.walk s) rest

/-- Walk through an item of a `FROM` list. -/
def Source.walk (s : σ) : Source → σ
  | .mk relation joins => walkJoins (relation.walk s) joins

/-- Walk through some joins. -/
def walkJoins (s : σ) : List Join → σ
  | [] => s
  | .mk relation on :: rest => walkJoins (walkOption (relation.walk s) on) rest

def Relation.walk (s : σ) : Relation → σ
  | .table name alias? => v.meet s (.relation (.table name alias?))
  | .derived q alias? =>
      let s := v.meet s (.relation (.derived q alias?))
      if v.enters s q then q.walk (v.meet s (.query q)) else v.meet s (.query q)
  | .nested source => source.walk (v.meet s (.relation (.nested source)))
  | .other alias? => v.meet s (.relation (.other alias?))

end

end Walk

/-- A visitor that decides by the query alone which queries the walk enters. -/
def Visitor.entering {σ : Type} (enters : Query → Bool) (meet : σ → Visit → σ) : Visitor σ :=
  ⟨meet, fun _ => enters⟩

section Met

variable {σ : Type} (enters : Query → Bool) (meet : σ → Visit → σ)

@[simp] theorem Visitor.meet_entering : (Visitor.entering enters meet).meet = meet := rfl

@[simp] theorem Visitor.enters_entering (s : σ) :
    (Visitor.entering enters meet).enters s = enters := rfl

mutual

/-- The visitor is told of what the walk meets, in order. -/
theorem Expression.walk_eq : ∀ (e : Expression) (s : σ),
    e.walk (.entering enters meet) s = (e.visits enters).foldl meet s
  | .column _, _ => by simp only [Expression.walk, Expression.visits]; rfl
  | .subquery q, s => by
      simp only [Expression.walk, Expression.visits, List.foldl_cons]
      cases h : enters q <;> simp [h, q.walk_eq]
  | .all parts, s => by
      simp only [Expression.walk, Expression.visits]
      exact walkAll_eq parts s
  | .literal, s => by simp only [Expression.walk, Expression.visits]; rfl

theorem walkAll_eq : ∀ (es : List Expression) (s : σ),
    walkAll (.entering enters meet) s es = (visitsOfAll enters es).foldl meet s
  | [], _ => rfl
  | e :: rest, s => by
      simp only [walkAll, visitsOfAll, List.foldl_append, e.walk_eq, walkAll_eq rest]

theorem walkOption_eq : ∀ (e : Option Expression) (s : σ),
    walkOption (.entering enters meet) s e = (visitsOfOption enters e).foldl meet s
  | none, _ => rfl
  | some e, s => by simp only [walkOption, visitsOfOption, e.walk_eq]

theorem Query.walk_eq : ∀ (q : Query) (s : σ),
    q.walk (.entering enters meet) s = (q.visits enters).foldl meet s
  | .mk ctes selects order, s => by
      simp only [Query.walk, Query.visits, List.foldl_append, walkCtes_eq ctes,
        walkSelects_eq selects, walkAll_eq order]

theorem walkCtes_eq : ∀ (ctes : List Cte) (s : σ),
    walkCtes (.entering enters meet) s ctes = (visitsOfCtes enters ctes).foldl meet s
  | [], _ => rfl
  | .mk name columns q :: rest, s => by
      simp only [walkCtes, visitsOfCtes, List.foldl_cons, List.foldl_append, walkCtes_eq rest]
      cases h : enters q <;> simp [h, q.walk_eq]

theorem walkSelects_eq : ∀ (selects : List Select) (s : σ),
    walkSelects (.entering enters meet) s selects = (visitsOfSelects enters selects).foldl meet s
  | [], _ => rfl
  | .mk items sources selection groups having :: rest, s => by
      simp only [walkSelects, visitsOfSelects, List.foldl_append, walkSources_eq sources,
        walkItems_eq items, walkOption_eq selection, walkAll_eq groups, walkOption_eq having,
        walkSelects_eq rest]

theorem walkItems_eq : ∀ (items : List Item) (s : σ),
    walkItems (.entering enters meet) s items = (visitsOfItems enters items).foldl meet s
  | [], _ => rfl
  | .value e _ :: rest, s => by
      simp only [walkItems, visitsOfItems, List.foldl_append, e.walk_eq, walkItems_eq rest]
  | .star :: rest, s => walkItems_eq rest s
  | .starOf _ :: rest, s => walkItems_eq rest s

theorem walkSources_eq : ∀ (sources : List Source) (s : σ),
    walkSources (.entering enters meet) s sources = (visitsOfSources enters sources).foldl meet s
  | [], _ => rfl
  | source :: rest, s => by
      simp only [walkSources, visitsOfSources, List.foldl_append, source.walk_eq,
        walkSources_eq rest]

theorem Source.walk_eq : ∀ (source : Source) (s : σ),
    source.walk (.entering enters meet) s = (source.visits enters).foldl meet s
  | .mk relation joins, s => by
      simp only [Source.walk, Source.visits, List.foldl_append, relation.walk_eq,
        walkJoins_eq joins]

theorem walkJoins_eq : ∀ (joins : List Join) (s : σ),
    walkJoins (.entering enters meet) s joins = (visitsOfJoins enters joins).foldl meet s
  | [], _ => rfl
  | .mk relation on :: rest, s => by
      simp only [walkJoins, visitsOfJoins, List.foldl_append, relation.walk_eq, walkOption_eq on,
        walkJoins_eq rest]

theorem Relation.walk_eq : ∀ (relation : Relation) (s : σ),
    relation.walk (.entering enters meet) s = (relation.visits enters).foldl meet s
  | .table _ _, _ => rfl
  | .derived q alias?, s => by
      simp only [Relation.walk, Relation.visits, List.foldl_cons]
      cases h : enters q <;> simp [h, q.walk_eq]
  | .nested source, s => by
      simp only [Relation.walk, Relation.visits, List.foldl_cons, source.walk_eq]
      rfl
  | .other _, _ => rfl

end

end Met

section Entered

variable (enters : Query → Bool)

/-- What a walk goes on to where it meets something: into a query that it enters. -/
def Visit.entered : Visit → List Visit
  | .query q => .query q :: if enters q then q.visits enters else []
  | .cte c => [.cte c]
  | .relation r => [.relation r]
  | .column c => [.column c]

mutual

/-- A walk meets what the walk that enters no query meets, and where this meets a query, what is met
in there as well. -/
theorem Expression.visits_eq_flatMap : ∀ e : Expression,
    e.visits enters = (e.visits fun _ => false).flatMap (Visit.entered enters)
  | .column _ => by simp [Expression.visits, Visit.entered]
  | .subquery _ => by simp [Expression.visits, Visit.entered]
  | .all parts => by
      simp only [Expression.visits]
      exact visitsOfAll_eq_flatMap parts
  | .literal => by simp [Expression.visits]

theorem visitsOfAll_eq_flatMap : ∀ es : List Expression,
    visitsOfAll enters es = (visitsOfAll (fun _ => false) es).flatMap (Visit.entered enters)
  | [] => rfl
  | e :: rest => by
      simp only [visitsOfAll, List.flatMap_append]
      rw [e.visits_eq_flatMap, visitsOfAll_eq_flatMap rest]

end

theorem visitsOfOption_eq_flatMap (e : Option Expression) :
    visitsOfOption enters e =
      (visitsOfOption (fun _ => false) e).flatMap (Visit.entered enters) := by
  cases e with
  | none => rfl
  | some e =>
      simp only [visitsOfOption]
      exact e.visits_eq_flatMap enters

theorem visitsOfItems_eq_flatMap (items : List Item) :
    visitsOfItems enters items =
      (visitsOfItems (fun _ => false) items).flatMap (Visit.entered enters) := by
  induction items with
  | nil => rfl
  | cons item rest ih =>
      cases item with
      | star => exact ih
      | starOf qualifier => exact ih
      | value e alias? =>
          simp only [visitsOfItems, List.flatMap_append, ← ih]
          rw [e.visits_eq_flatMap]

mutual

theorem Relation.visits_eq_flatMap : ∀ r : Relation,
    r.visits enters = (r.visits fun _ => false).flatMap (Visit.entered enters)
  | .table _ _ => by simp [Relation.visits, Visit.entered]
  | .derived _ _ => by simp [Relation.visits, Visit.entered]
  | .nested s => by
      simp only [Relation.visits, List.flatMap_cons, Visit.entered]
      rw [s.visits_eq_flatMap, List.singleton_append]
  | .other _ => by simp [Relation.visits, Visit.entered]

theorem Source.visits_eq_flatMap : ∀ s : Source,
    s.visits enters = (s.visits fun _ => false).flatMap (Visit.entered enters)
  | .mk relation joins => by
      simp only [Source.visits, List.flatMap_append]
      rw [relation.visits_eq_flatMap, visitsOfJoins_eq_flatMap joins]

theorem visitsOfJoins_eq_flatMap : ∀ joins : List Join,
    visitsOfJoins enters joins =
      (visitsOfJoins (fun _ => false) joins).flatMap (Visit.entered enters)
  | [] => rfl
  | .mk relation on :: rest => by
      simp only [visitsOfJoins, List.flatMap_append]
      rw [relation.visits_eq_flatMap, visitsOfOption_eq_flatMap, visitsOfJoins_eq_flatMap rest]

end

theorem visitsOfSources_eq_flatMap (sources : List Source) :
    visitsOfSources enters sources =
      (visitsOfSources (fun _ => false) sources).flatMap (Visit.entered enters) := by
  induction sources with
  | nil => rfl
  | cons s rest ih =>
      simp only [visitsOfSources, List.flatMap_append, ← ih]
      rw [s.visits_eq_flatMap]

theorem visitsOfSelects_eq_flatMap (selects : List Select) :
    visitsOfSelects enters selects =
      (visitsOfSelects (fun _ => false) selects).flatMap (Visit.entered enters) := by
  induction selects with
  | nil => rfl
  | cons s rest ih =>
      cases s
      simp only [visitsOfSelects, List.flatMap_append, ← ih, ← visitsOfSources_eq_flatMap,
        ← visitsOfItems_eq_flatMap, ← visitsOfOption_eq_flatMap, ← visitsOfAll_eq_flatMap]

theorem visitsOfCtes_eq_flatMap (ctes : List Cte) :
    visitsOfCtes enters ctes =
      (visitsOfCtes (fun _ => false) ctes).flatMap (Visit.entered enters) := by
  induction ctes with
  | nil => rfl
  | cons c rest ih =>
      cases c
      simp [visitsOfCtes, Visit.entered, ih]

theorem Query.visits_eq_flatMap (q : Query) :
    q.visits enters = (q.visits fun _ => false).flatMap (Visit.entered enters) := by
  cases q
  simp only [Query.visits, List.flatMap_append, ← visitsOfCtes_eq_flatMap,
    ← visitsOfSelects_eq_flatMap, ← visitsOfAll_eq_flatMap]

end Entered

@[simp] def Visit.column? : Visit → Option Column
  | .column c => some c
  | .cte _ | .relation _ | .query _ => none

@[simp] def Visit.query? : Visit → Option Query
  | .query q => some q
  | .cte _ | .relation _ | .column _ => none

/-- The columns that a walk meets. -/
def columnsMet (visits : List Visit) : List Column :=
  visits.filterMap Visit.column?

/-- The queries that a walk meets, and may enter. -/
def queriesMet (visits : List Visit) : List Query :=
  visits.filterMap Visit.query?

section

variable (xs ys : List Visit)

@[simp] theorem columnsMet_nil : columnsMet [] = [] := rfl

@[simp] theorem queriesMet_nil : queriesMet [] = [] := rfl

@[simp] theorem columnsMet_cons (x : Visit) :
    columnsMet (x :: xs) = x.column?.toList ++ columnsMet xs := by
  cases x <;> rfl

@[simp] theorem queriesMet_cons (x : Visit) :
    queriesMet (x :: xs) = x.query?.toList ++ queriesMet xs := by
  cases x <;> rfl

@[simp] theorem columnsMet_append : columnsMet (xs ++ ys) = columnsMet xs ++ columnsMet ys :=
  List.filterMap_append

@[simp] theorem queriesMet_append : queriesMet (xs ++ ys) = queriesMet xs ++ queriesMet ys :=
  List.filterMap_append

/-- Where queries are entered, the columns in them are met in addition. -/
theorem columnsMet_flatMap_entered (enters : Query → Bool) :
    (columnsMet (xs.flatMap (Visit.entered enters))).Perm (columnsMet xs ++
      ((queriesMet xs).filter enters).flatMap fun q => columnsMet (q.visits enters)) := by
  induction xs with
  | nil => exact .refl []
  | cons x rest ih =>
      rw [List.flatMap_cons, columnsMet_append]
      cases x with
      | cte c => exact ih
      | relation r => exact ih
      | column c => exact ih.cons c
      | query q =>
          cases hq : enters q with
          | false => simpa [Visit.entered, hq] using ih
          | true =>
              have hmore := ih.append_left (columnsMet (q.visits enters))
              simpa [Visit.entered, hq] using hmore.trans (List.perm_append_comm_assoc _ _ _)

end

/-- What has been collected from expressions. -/
structure Collected where
  columns : List Column := []
  subqueries : List Query := []

mutual

/-- Collect the columns of an expression and the queries that stand directly in it, behind what has
been collected before. -/
def Collected.take (c : Collected) : Expression → Collected
  | .column column => { c with columns := c.columns ++ [column] }
  | .subquery q => { c with subqueries := c.subqueries ++ [q] }
  | .all parts => c.takeAll parts
  | .literal => c

/-- Collect the columns of some expressions and the queries that stand directly in them. -/
def Collected.takeAll (c : Collected) : List Expression → Collected
  | [] => c
  | e :: rest => (c.take e).takeAll rest

end

def Expression.collect (e : Expression) : Collected :=
  Collected.take {} e

mutual

theorem Collected.take_eq : ∀ (e : Expression) (c : Collected),
    c.take e = ⟨c.columns ++ e.columns, c.subqueries ++ e.subqueries⟩
  | .column _, c => by
      simp only [take, Expression.columns, Expression.subqueries, List.append_nil]
  | .subquery _, c => by
      simp only [take, Expression.columns, Expression.subqueries, List.append_nil]
  | .all parts, c => by
      simp only [take, Expression.columns, Expression.subqueries]
      exact takeAll_eq parts c
  | .literal, c => by
      simp only [take, Expression.columns, Expression.subqueries, List.append_nil]

theorem Collected.takeAll_eq : ∀ (es : List Expression) (c : Collected),
    c.takeAll es = ⟨c.columns ++ columnsOfAll es, c.subqueries ++ subqueriesOfAll es⟩
  | [], c => by
      simp only [takeAll, columnsOfAll, subqueriesOfAll, List.append_nil]
  | e :: rest, c => by
      simp only [takeAll, take_eq e, takeAll_eq rest, columnsOfAll, subqueriesOfAll,
        List.append_assoc]

end

theorem Expression.collect_eq (e : Expression) : e.collect = ⟨e.columns, e.subqueries⟩ :=
  Collected.take_eq e {}

/-- A walk meets exactly the columns and the queries that are collected, each in their order. -/
structure Meets (visits : List Visit) (columns : List Column) (queries : List Query) : Prop where
  columns : columnsMet visits = columns
  queries : queriesMet visits = queries
  only : ∀ x ∈ visits, (∃ c, x = .column c) ∨ ∃ q, x = .query q

theorem Meets.nil : Meets [] [] [] := ⟨rfl, rfl, by simp⟩

theorem Meets.append {visits visits' : List Visit} {columns columns' : List Column}
    {queries queries' : List Query} (h : Meets visits columns queries)
    (h' : Meets visits' columns' queries') :
    Meets (visits ++ visits') (columns ++ columns') (queries ++ queries') := by
  refine ⟨?_, ?_, List.forall_mem_append.mpr ⟨h.only, h'.only⟩⟩
  · rw [columnsMet_append, h.columns, h'.columns]
  · rw [queriesMet_append, h.queries, h'.queries]

mutual

/-- A walk through an expression that enters no query meets what is collected from it. -/
theorem Expression.visits_meets : ∀ e : Expression,
    Meets (e.visits fun _ => false) e.columns e.subqueries
  | .column c => by
      simp only [Expression.visits, Expression.columns, Expression.subqueries]
      exact ⟨rfl, rfl, by simp⟩
  | .subquery q => by
      simp only [Expression.visits, Expression.columns, Expression.subqueries]
      exact ⟨rfl, rfl, by simp⟩
  | .all parts => by
      simp only [Expression.visits, Expression.columns, Expression.subqueries]
      exact visitsOfAll_meets parts
  | .literal => by
      simp only [Expression.visits, Expression.columns, Expression.subqueries]
      exact .nil

theorem visitsOfAll_meets : ∀ es : List Expression,
    Meets (visitsOfAll (fun _ => false) es) (columnsOfAll es) (subqueriesOfAll es)
  | [] => by
      simp only [visitsOfAll, columnsOfAll, subqueriesOfAll]
      exact .nil
  | e :: rest => by
      simp only [visitsOfAll, columnsOfAll, subqueriesOfAll]
      exact e.visits_meets.append (visitsOfAll_meets rest)

end

mutual

/-- The conditions of the joins in a relation that is a group. -/
def Relation.conditions : Relation → List Expression
  | .nested s => s.conditions
  | .table _ _ | .derived _ _ | .other _ => []

def Source.conditions : Source → List Expression
  | .mk relation joins => relation.conditions ++ conditionsOfJoins joins

/-- The conditions of some joins, those in a joined group first. -/
def conditionsOfJoins : List Join → List Expression
  | [] => []
  | .mk relation on :: rest => relation.conditions ++ on.toList ++ conditionsOfJoins rest

end

mutual

/-- The queries that a relation gives the rows of. -/
def Relation.tableQueries : Relation → List Query
  | .derived q _ => [q]
  | .nested s => s.tableQueries
  | .table _ _ | .other _ => []

/-- The queries of the derived tables in an item of a `FROM` list. -/
def Source.tableQueries : Source → List Query
  | .mk relation joins => relation.tableQueries ++ tableQueriesOfJoins joins

/-- The queries of the derived tables in some joins. -/
def tableQueriesOfJoins : List Join → List Query
  | [] => []
  | .mk relation _ :: rest => relation.tableQueries ++ tableQueriesOfJoins rest

end

/-- The expression of an item of a `SELECT` list, if it has one. -/
def Item.value? : Item → Option Expression
  | .value e _ => some e
  | .star | .starOf _ => none

/-- The expressions of a `SELECT`, leaving out those of the queries in it. -/
def Select.expressions (s : Select) : List Expression :=
  s.sources.flatMap Source.conditions ++ s.items.filterMap Item.value? ++ s.selection.toList
    ++ s.groups ++ s.having.toList

/-- The expressions of a query, leaving out those of the queries in it. -/
def Query.expressions (q : Query) : List Expression :=
  q.selects.flatMap Select.expressions ++ q.order

/-- The queries in a query that stand in none of its expressions: those of its common table
expressions and of its derived tables. -/
def Query.tableQueries (q : Query) : List Query :=
  q.ctes.map Cte.query ++ q.selects.flatMap fun s => s.sources.flatMap Source.tableQueries

/-- A walk that enters no query meets these queries and what is collected from these expressions. -/
structure Gathers (visits : List Visit) (queries : List Query) (own : List Expression) :
    Prop where
  columns : columnsMet visits = own.flatMap Expression.columns
  queries : (queriesMet visits).Perm (queries ++ own.flatMap Expression.subqueries)

namespace Gathers

variable {visits visits' : List Visit} {queries queries' : List Query}
  {own own' : List Expression}

theorem nil : Gathers [] [] [] := ⟨rfl, .refl []⟩

theorem append (h : Gathers visits queries own) (h' : Gathers visits' queries' own') :
    Gathers (visits ++ visits') (queries ++ queries') (own ++ own') := by
  refine ⟨?_, ?_⟩
  · rw [columnsMet_append, h.columns, h'.columns, List.flatMap_append]
  · have hswap := (List.perm_append_comm_assoc (own.flatMap Expression.subqueries) queries'
      (own'.flatMap Expression.subqueries)).append_left queries
    rw [queriesMet_append, List.flatMap_append, List.append_assoc]
    rw [← List.append_assoc] at hswap
    exact (h.queries.append h'.queries).trans hswap

theorem relation (r : Relation) (h : Gathers visits queries own) :
    Gathers (.relation r :: visits) queries own :=
  ⟨h.columns, h.queries⟩

theorem query (q : Query) (h : Gathers visits queries own) :
    Gathers (.query q :: visits) (q :: queries) own :=
  ⟨h.columns, h.queries.cons q⟩

theorem cte (c : Cte) (h : Gathers visits queries own) : Gathers (.cte c :: visits) queries own :=
  ⟨h.columns, h.queries⟩

end Gathers

theorem Expression.visits_gathers (e : Expression) :
    Gathers (e.visits fun _ => false) [] [e] := by
  refine ⟨?_, ?_⟩
  · rw [e.visits_meets.columns, List.flatMap_singleton]
  · rw [e.visits_meets.queries, List.flatMap_singleton, List.nil_append]

theorem visitsOfAll_gathers (es : List Expression) :
    Gathers (visitsOfAll (fun _ => false) es) [] es := by
  induction es with
  | nil => exact .nil
  | cons e rest ih => exact e.visits_gathers.append ih

theorem visitsOfOption_gathers (e : Option Expression) :
    Gathers (visitsOfOption (fun _ => false) e) [] e.toList := by
  cases e with
  | none => exact .nil
  | some e => exact e.visits_gathers

theorem visitsOfItems_gathers (items : List Item) :
    Gathers (visitsOfItems (fun _ => false) items) [] (items.filterMap Item.value?) := by
  induction items with
  | nil => exact .nil
  | cons item rest ih =>
      cases item with
      | star => exact ih
      | starOf qualifier => exact ih
      | value e alias? => exact e.visits_gathers.append ih

mutual

theorem Relation.visits_gathers : ∀ r : Relation,
    Gathers (r.visits fun _ => false) r.tableQueries r.conditions
  | .table _ _ => by
      simp only [Relation.visits, Relation.tableQueries, Relation.conditions]
      exact .relation _ .nil
  | .derived q _ => by
      simp only [Relation.visits, Relation.tableQueries, Relation.conditions]
      exact .relation _ (.query q .nil)
  | .nested s => by
      simp only [Relation.visits, Relation.tableQueries, Relation.conditions]
      exact s.visits_gathers.relation _
  | .other _ => by
      simp only [Relation.visits, Relation.tableQueries, Relation.conditions]
      exact .relation _ .nil

theorem Source.visits_gathers : ∀ s : Source,
    Gathers (s.visits fun _ => false) s.tableQueries s.conditions
  | .mk relation joins => by
      simp only [Source.visits, Source.tableQueries, Source.conditions]
      exact relation.visits_gathers.append (visitsOfJoins_gathers joins)

theorem visitsOfJoins_gathers : ∀ joins : List Join,
    Gathers (visitsOfJoins (fun _ => false) joins) (tableQueriesOfJoins joins)
      (conditionsOfJoins joins)
  | [] => by
      simp only [visitsOfJoins, tableQueriesOfJoins, conditionsOfJoins]
      exact .nil
  | .mk relation on :: rest => by
      have h := relation.visits_gathers.append (visitsOfOption_gathers on)
      rw [List.append_nil] at h
      simp only [visitsOfJoins, tableQueriesOfJoins, conditionsOfJoins]
      exact h.append (visitsOfJoins_gathers rest)

end

theorem visitsOfSources_gathers (sources : List Source) :
    Gathers (visitsOfSources (fun _ => false) sources) (sources.flatMap Source.tableQueries)
      (sources.flatMap Source.conditions) := by
  induction sources with
  | nil => exact .nil
  | cons s rest ih => exact s.visits_gathers.append ih

theorem visitsOfSelects_gathers (selects : List Select) :
    Gathers (visitsOfSelects (fun _ => false) selects)
      (selects.flatMap fun s => s.sources.flatMap Source.tableQueries)
      (selects.flatMap Select.expressions) := by
  induction selects with
  | nil => exact .nil
  | cons s rest ih =>
      obtain ⟨items, sources, selection, groups, having⟩ := s
      have hitems := (visitsOfSources_gathers sources).append (visitsOfItems_gathers items)
      have hgroups := (hitems.append (visitsOfOption_gathers selection)).append
        (visitsOfAll_gathers groups)
      have hselect := hgroups.append (visitsOfOption_gathers having)
      simp only [List.append_nil] at hselect
      exact hselect.append ih

theorem visitsOfCtes_gathers (ctes : List Cte) :
    Gathers (visitsOfCtes (fun _ => false) ctes) (ctes.map Cte.query) [] := by
  induction ctes with
  | nil => exact .nil
  | cons c rest ih =>
      cases c
      exact .cte _ (.query _ ih)

/-- A walk through a query that enters no other query meets what is collected from its expressions,
and the queries of its common table expressions and derived tables. -/
theorem Query.visits_gathers (q : Query) :
    Gathers (q.visits fun _ => false) q.tableQueries q.expressions := by
  obtain ⟨ctes, selects, order⟩ := q
  have h := ((visitsOfCtes_gathers ctes).append (visitsOfSelects_gathers selects)).append
    (visitsOfAll_gathers order)
  rw [List.append_nil] at h
  simp only [Query.visits]
  exact h

/-- The two walks through an expression agree. A visitor that enters no query is told of exactly the
columns that are collected and asked about exactly the collected queries, each in order, and of
nothing else. One that enters every query is told of the collected columns and of those that a walk
through each collected query meets, each as often as there. So it goes on at any depth: a walk
through a query meets the columns that are collected from its expressions, and those that a walk
meets through each query that is collected there or that is a table of the query. -/
theorem walk_meets_collected (e : Expression) :
    (∀ (σ : Type) (meet : σ → Visit → σ) (enters : Query → Bool) (s : σ),
      e.walk (.entering enters meet) s = (e.visits enters).foldl meet s) ∧
    Meets (e.visits fun _ => false) e.collect.columns e.collect.subqueries ∧
    (columnsMet (e.visits fun _ => true)).Perm (e.collect.columns ++
      e.collect.subqueries.flatMap fun q => columnsMet (q.visits fun _ => true)) ∧
    ∀ q : Query, (columnsMet (q.visits fun _ => true)).Perm
      ((q.expressions.flatMap fun e => e.collect.columns) ++
        (q.tableQueries ++ q.expressions.flatMap fun e => e.collect.subqueries).flatMap
          fun q => columnsMet (q.visits fun _ => true)) := by
  have hall (queries : List Query) : queries.filter (fun _ => true) = queries :=
    List.filter_eq_self.mpr fun _ _ => rfl
  simp only [Expression.collect_eq]
  refine ⟨fun σ meet enters s => e.walk_eq enters meet s, e.visits_meets, ?_, fun q => ?_⟩
  · have h := columnsMet_flatMap_entered (e.visits fun _ => false) fun _ => true
    rwa [← e.visits_eq_flatMap, hall, e.visits_meets.columns, e.visits_meets.queries] at h
  · have h := columnsMet_flatMap_entered (q.visits fun _ => false) fun _ => true
    rw [← q.visits_eq_flatMap, hall, q.visits_gathers.columns] at h
    exact h.trans ((q.visits_gathers.queries.flatMap_right _).append_left _)

end SqlInsight.Outline
