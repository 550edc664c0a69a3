/-
What an outline keeps of a query in parentheses: its `SELECT`s, but neither its common table
expressions nor what it is ordered by. So the `SELECT`s of a query all have the common table
expressions of the outermost query and no others, however deep in parentheses and set operations
they stand.
-/
import Mathlib.Logic.Function.Iterate
import SqlInsight.Outline.OfSyntax
import SqlInsight.Reading.Standard
import SqlInsight.Validation

namespace SqlInsight.Outline

open Grammar (OrderItem)

/-- A query whose body is just another one in parentheses. -/
def inParens (q : Grammar.Query) : Grammar.Query :=
  .mk [] (.query q) []

/-- A `SELECT` of a query, and the common table expressions that are declared for it: those of the
query, and those of the queries in parentheses around it, from the outside in. -/
structure Operand where
  around : List Grammar.Cte
  select : Grammar.Select

mutual

/-- The `SELECT`s of the body of a query, with what is declared around it. -/
def operandsOfBody (around : List Grammar.Cte) : Grammar.Body → List Operand
  | .select select => [⟨around, select⟩]
  | .query q => operandsOf around q
  | .operation left right => operandsOfBody around left ++ operandsOfBody around right
  | .values _ => []
  | .other => []

/-- The `SELECT`s of a query, with what is declared around it. -/
def operandsOf (around : List Grammar.Cte) : Grammar.Query → List Operand
  | .mk ctes body _ => operandsOfBody (around ++ ctes) body

end

/-- The outlines of the `SELECT`s of a query, each with those of the common table expressions that
are declared for it. -/
def declared (q : Grammar.Query) : List (List Cte × Select) :=
  (operandsOf [] q).map fun o => (ofCtes o.around, ofSelect o.select)

/-- The `SELECT`s of an outline, each with the common table expressions that are defined for it. -/
def defined (q : Query) : List (List Cte × Select) :=
  q.selects.map fun select => (q.ctes, select)

section Operands

variable {ctes : List Grammar.Cte} {body : Grammar.Body} {order : List OrderItem}

mutual

/-- Every `SELECT` of a body is kept, in order. -/
theorem ofBody_eq (around : List Grammar.Cte) (body : Grammar.Body) :
    ofBody body = (operandsOfBody around body).map fun o => ofSelect o.select := by
  cases body with
  | select select => rfl
  | query q =>
      rw [ofBody, operandsOfBody]
      exact selects_ofQuery around q
  | operation left right =>
      rw [ofBody, operandsOfBody, List.map_append, ← ofBody_eq around left,
        ← ofBody_eq around right]
  | values entries => rfl
  | other => rfl

/-- Every `SELECT` of a query is kept, in order. -/
theorem selects_ofQuery (around : List Grammar.Cte) (q : Grammar.Query) :
    (ofQuery q).selects = (operandsOf around q).map fun o => ofSelect o.select := by
  cases q with
  | mk ctes body order =>
      rw [ofQuery, operandsOf]
      exact ofBody_eq (around ++ ctes) body

end

mutual

/-- What is declared around a body is declared for its `SELECT`s, first of all. -/
theorem isPrefix_around_of_mem_body {around : List Grammar.Cte} {body : Grammar.Body}
    {o : Operand} (h : o ∈ operandsOfBody around body) : around <+: o.around := by
  cases body with
  | select select =>
      rw [operandsOfBody, List.mem_singleton] at h
      subst h
      exact List.prefix_rfl
  | query q =>
      rw [operandsOfBody] at h
      exact isPrefix_around_of_mem h
  | operation left right =>
      rw [operandsOfBody, List.mem_append] at h
      rcases h with h | h
      · exact isPrefix_around_of_mem_body h
      · exact isPrefix_around_of_mem_body h
  | values entries => simp [operandsOfBody] at h
  | other => simp [operandsOfBody] at h

theorem isPrefix_around_of_mem {around : List Grammar.Cte} {q : Grammar.Query} {o : Operand}
    (h : o ∈ operandsOf around q) : around <+: o.around := by
  cases q with
  | mk ctes body order =>
      rw [operandsOf] at h
      exact (List.prefix_append around ctes).trans (isPrefix_around_of_mem_body h)

end

theorem ofCtes_eq_nil_iff : ofCtes ctes = [] ↔ ctes = [] := by
  cases ctes with
  | nil => exact ⟨fun _ => rfl, fun _ => rfl⟩
  | cons c rest =>
      obtain ⟨name, columns, q⟩ := c
      simp [ofCtes]

theorem ofOrder_eq_nil_iff : ofOrder order = [] ↔ order = [] := by
  cases order with
  | nil => exact ⟨fun _ => rfl, fun _ => rfl⟩
  | cons item rest =>
      obtain ⟨value, filling⟩ := item
      simp [ofOrder]

theorem length_ofCtes (ctes : List Grammar.Cte) : (ofCtes ctes).length = ctes.length := by
  induction ctes with
  | nil => rfl
  | cons c rest ih =>
      obtain ⟨name, columns, q⟩ := c
      rw [ofCtes, List.length_cons, List.length_cons, ih]

/-- In parentheses a query keeps its `SELECT`s and nothing else, however many they are. -/
theorem ofQuery_iterate_inParens (q : Grammar.Query) (n : Nat) :
    ofQuery (inParens^[n + 1] q) = .mk [] (ofQuery q).selects [] := by
  induction n generalizing q with
  | zero => rfl
  | succ n ih =>
      rw [Function.iterate_succ_apply, ih (inParens q)]
      rfl

/-- The common table expressions that are declared in parentheses around an operand are defined for
it only if there are none. -/
theorem ofCtes_around_eq_iff {o : Operand} (h : ctes <+: o.around) :
    ofCtes ctes = ofCtes o.around ↔ o.around = ctes := by
  constructor
  · intro heq
    have hlength : ctes.length = o.around.length := by
      rw [← length_ofCtes ctes, heq, length_ofCtes]
    exact (h.eq_of_length hlength).symm
  · intro heq
    rw [heq]

/-- A query in parentheses keeps its `SELECT`s; it keeps its common table expressions and its order
exactly if it has none. And at every depth of parentheses and set operations the `SELECT`s are those
that are declared, in order; but the common table expressions that are defined for them are those
that are declared for them exactly if all are declared by the outermost query. -/
theorem parentheses_keep_selects (ctes : List Grammar.Cte) (body : Grammar.Body)
    (order : List OrderItem) :
    let q : Grammar.Query := .mk ctes body order
    (∀ n, ofQuery (inParens^[n + 1] q) = .mk [] (ofQuery q).selects []) ∧
      (ofQuery (inParens q) = ofQuery q ↔ ctes = [] ∧ order = []) ∧
      (defined (ofQuery q)).map Prod.snd = (declared q).map Prod.snd ∧
      (defined (ofQuery q) = declared q ↔ ∀ o ∈ operandsOf [] q, o.around = ctes) := by
  intro q
  have hselects : (ofQuery q).selects = (operandsOf [] q).map fun o => ofSelect o.select :=
    selects_ofQuery [] q
  have hdefined : defined (ofQuery q) =
      (operandsOf [] q).map fun o => (ofCtes ctes, ofSelect o.select) := by
    rw [defined, hselects, List.map_map]
    rfl
  refine ⟨ofQuery_iterate_inParens q, ?_, ?_, ?_⟩
  · rw [← ofCtes_eq_nil_iff, ← ofOrder_eq_nil_iff]
    have hplain : ofQuery (inParens q) = .mk [] (ofBody body) [] := rfl
    have hquery : ofQuery q = .mk (ofCtes ctes) (ofBody body) (ofOrder order) := rfl
    rw [hplain, hquery, Query.mk.injEq]
    constructor
    · rintro ⟨hctes, -, horder⟩
      exact ⟨hctes.symm, horder.symm⟩
    · rintro ⟨hctes, horder⟩
      exact ⟨hctes.symm, rfl, horder.symm⟩
  · rw [hdefined, declared, List.map_map, List.map_map]
    rfl
  · rw [hdefined, declared, List.map_inj_left]
    refine forall₂_congr fun o ho => ?_
    have hprefix : ctes <+: o.around := by
      rw [operandsOf, List.nil_append] at ho
      exact isPrefix_around_of_mem_body ho
    rw [Prod.mk.injEq, ofCtes_around_eq_iff hprefix]
    exact and_iff_left rfl

/-- A name that is declared in parentheses is lost: the query alone has no finding, in parentheses
its table is missing, and so it is in an operand of a set operation. -/
theorem ctes_lost_in_parens :
    let column : Grammar.Expr := .identifier ⟨"a", none⟩
    let one : Grammar.Query :=
      .mk [] (.select (.mk [.aliased .literal ⟨"a", none⟩] [] none [] none)) []
    let reading : Grammar.Body :=
      .select (.mk [.plain column] [.mk (.table [⟨"c", none⟩] none false) []] none [] none)
    let q : Grammar.Query := .mk [.mk ⟨"c", none⟩ [] one] reading [.mk column []]
    let codes (t : String) : List Code :=
      (Validation.validate ⟨standardParser, {}⟩ (some ⟨"Shop".toList, [], []⟩) t.toList).map
        Diagnostic.code
    ((ofQuery q).ctes.length = 1 ∧ (ofQuery q).order.length = 1 ∧
        ofQuery (inParens q) = .mk [] (ofQuery q).selects []) ∧
      ((declared (.mk [] (.operation reading (.query q)) [])).map fun o => o.1.length) = [0, 1] ∧
      ((defined (ofQuery (.mk [] (.operation reading (.query q)) []))).map fun o => o.1.length) =
        [0, 0] ∧
      codes "WITH c AS (SELECT 1 AS a) SELECT a FROM c" = [] ∧
      codes "(WITH c AS (SELECT 1 AS a) SELECT a FROM c)" = [.tableNotFound] := by
  intro column one reading q codes
  exact ⟨⟨rfl, rfl, rfl⟩, rfl, rfl, by decide +kernel, by decide +kernel⟩

end Operands

end SqlInsight.Outline
