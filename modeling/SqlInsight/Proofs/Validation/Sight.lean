/-
The names that a check has in sight. A query leaves them as it finds them, whatever it brings into
sight on the way, and behind a list of common table expressions each of these is in sight with the
columns that it lists, or else with those that its query has where it stands.
-/
import Mathlib.Data.List.Induction
import SqlInsight.Proofs.Validation.MissingTables

namespace SqlInsight.Validation

open Outline

/-- A common table expression as it comes into sight. -/
def CteColumns.ofDeclared (n : Names) (c : Cte) : CteColumns :=
  ⟨c.name, (if c.columns.isEmpty then none else some c.columns).or (queryColumns? n c.query)⟩

namespace Names

/-- The names in sight behind common table expressions. -/
def behind (n : Names) (ctes : List Cte) : Names :=
  ctes.foldl (fun n c => { n with ctes := CteColumns.ofDeclared n c :: n.ctes }) n

theorem behind_append (n : Names) (first second : List Cte) :
    n.behind (first ++ second) = (n.behind first).behind second :=
  List.foldl_append

theorem schema_behind (n : Names) (ctes : List Cte) : (n.behind ctes).schema = n.schema := by
  induction ctes generalizing n with
  | nil => rfl
  | cons c rest ih => exact ih _

theorem ctes_behind (n : Names) (ctes : List Cte) :
    ∃ declared, (n.behind ctes).ctes = declared ++ n.ctes := by
  induction ctes generalizing n with
  | nil => exact ⟨[], rfl⟩
  | cons c rest ih =>
      obtain ⟨declared, h⟩ := ih { n with ctes := CteColumns.ofDeclared n c :: n.ctes }
      refine ⟨declared ++ [CteColumns.ofDeclared n c], ?_⟩
      rw [List.append_assoc]
      exact h

/-- A name means the last common table expression of a list that has the name, with the columns that
it has where it stands. -/
theorem cte?_behind {n : Names} (hn : n.ctes = []) (ctes : List Cte) {name : TableName}
    (hname : name.schema = none) :
    (n.behind ctes).cte? name = none ∧
        ctes.reverse.find? (·.name.sameAscii name.name) = none ∨
      ∃ before c after, ctes = before ++ c :: after ∧
        (n.behind ctes).cte? name = some (CteColumns.ofDeclared (n.behind before) c) ∧
        ctes.reverse.find? (·.name.sameAscii name.name) = some c := by
  have hfind (n : Names) : n.cte? name = n.ctes.find? fun cte => cte.name.sameAscii name.name := by
    rw [cte?, hname]
  induction ctes using List.reverseRecOn with
  | nil =>
      refine Or.inl ⟨?_, rfl⟩
      rw [hfind, behind, List.foldl_nil, hn]
      rfl
  | append_singleton before c ih =>
      have hlast : (n.behind (before ++ [c])).ctes =
          CteColumns.ofDeclared (n.behind before) c :: (n.behind before).ctes := by
        rw [behind_append]
        rfl
      have hname : (CteColumns.ofDeclared (n.behind before) c).name = c.name := rfl
      rw [hfind, hlast, List.reverse_concat, List.find?_cons, List.find?_cons, ← hfind, hname]
      cases c.name.sameAscii name.name
      · rcases ih with hnone | ⟨pre, d, post, rfl, hd⟩
        · exact Or.inl hnone
        · exact Or.inr ⟨pre, d, post ++ [c], by simp, hd⟩
      · exact Or.inr ⟨before, c, [], rfl, rfl, rfl⟩

end Names

namespace Checker

theorem names_forget {c : Checker} {n : Names} (hschema : c.names.schema = n.schema)
    (h : ∃ declared, c.names.ctes = declared ++ n.ctes) :
    (c.forget n.ctes.length).names = n := by
  obtain ⟨declared, hctes⟩ := h
  have hlength : declared.length + n.ctes.length - n.ctes.length = declared.length :=
    Nat.add_sub_cancel _ _
  unfold forget
  simp only [hctes, hschema, List.length_append, hlength, List.drop_left]

theorem names_checkTable (c : Checker) (name : TableName) :
    (c.checkTable name).names = c.names := by
  unfold checkTable
  split <;> rfl

mutual

theorem names_checkQuery (isOutermost : Bool) : ∀ (q : Query) (c : Checker),
    (checkQuery isOutermost c q).names = c.names
  | .mk ctes selects order, c => by
      have hforget {c' : Checker} (h : c'.names = c.names.behind ctes) :
          (c'.forget c.names.ctes.length).names = c.names := by
        refine names_forget ?_ ?_
        · rw [h, Names.schema_behind]
        · rw [h]
          exact c.names.ctes_behind ctes
      have hctes := names_checkCtes ctes c
      match selects with
      | [select] =>
          simp only [checkQuery]
          apply hforget
          rw [(endSelect_quiet _ _ _).names, names_checkAll, names_beginSelect, hctes]
      | [] =>
          simp only [checkQuery]
          apply hforget
          rw [names_checkNestedAll, names_checkSelects, hctes]
      | first :: second :: more =>
          simp only [checkQuery]
          apply hforget
          rw [names_checkNestedAll, names_checkSelects, hctes]

theorem names_checkCtes : ∀ (ctes : List Cte) (c : Checker),
    (checkCtes c ctes).names = c.names.behind ctes
  | [], _ => rfl
  | .mk name columns query :: rest, c => by
      let self : CteColumns := ⟨name, if columns.isEmpty then none else some columns⟩
      have hquery := names_checkQuery false query (c.declare self)
      have hforget : ((checkQuery false (c.declare self) query).forget c.names.ctes.length).names =
          c.names := by
        refine names_forget ?_ ⟨[self], ?_⟩
        · rw [hquery]
          rfl
        · rw [hquery]
          rfl
      simp only [checkCtes]
      rw [names_checkCtes rest, Checker.declare, hforget]
      rfl

theorem names_checkSelects (isOutermost : Bool) : ∀ (selects : List Select) (c : Checker),
    (checkSelects isOutermost c selects).names = c.names
  | [], _ => rfl
  | select :: rest, c => by
      simp only [checkSelects]
      rw [names_checkSelects isOutermost rest, (endSelect_quiet _ _ _).names, names_beginSelect]

theorem names_beginSelect : ∀ (select : Select) (c : Checker),
    (beginSelect c select).names = c.names
  | .mk items sources selection groups having, c => by
      simp only [beginSelect]
      rw [names_checkOption, names_checkAll, names_checkOption, names_checkItems,
        names_checkJoined, (enter_quiet _ _).names, names_checkSources]

theorem names_checkSources : ∀ (sources : List Source) (c : Checker),
    (checkSources c sources).names = c.names
  | [], _ => rfl
  | source :: rest, c => by
      simp only [checkSources]
      rw [names_checkSources rest, names_checkSource]

theorem names_checkSource : ∀ (source : Source) (c : Checker),
    (checkSource c source).names = c.names
  | .mk relation joins, c => by
      simp only [checkSource]
      rw [names_checkJoins, names_checkRelation]

theorem names_checkJoins : ∀ (joins : List Join) (c : Checker), (checkJoins c joins).names = c.names
  | [], _ => rfl
  | .mk relation _ :: rest, c => by
      simp only [checkJoins]
      rw [names_checkJoins rest, names_checkRelation]

theorem names_checkRelation : ∀ (relation : Relation) (c : Checker),
    (checkRelation c relation).names = c.names
  | .table name _, c => names_checkTable c name
  | .derived query _, c => names_checkQuery false query c
  | .nested source, c => names_checkSource source c
  | .other _, _ => rfl

theorem names_checkJoined : ∀ (sources : List Source) (c : Checker),
    (checkJoined c sources).names = c.names
  | [], _ => rfl
  | source :: rest, c => by
      simp only [checkJoined]
      rw [names_checkJoined rest, names_checkConditions]

theorem names_checkConditions : ∀ (source : Source) (c : Checker),
    (checkConditions c source).names = c.names
  | .mk relation joins, c => by
      simp only [checkConditions]
      rw [names_checkJoinConditions, names_checkGroup]

theorem names_checkJoinConditions : ∀ (joins : List Join) (c : Checker),
    (checkJoinConditions c joins).names = c.names
  | [], _ => rfl
  | .mk relation on :: rest, c => by
      simp only [checkJoinConditions]
      rw [names_checkJoinConditions rest, names_checkOption, names_checkGroup]

theorem names_checkGroup : ∀ (relation : Relation) (c : Checker),
    (checkGroup c relation).names = c.names
  | .table _ _, _ => rfl
  | .derived _ _, _ => rfl
  | .nested source, c => names_checkConditions source c
  | .other _, _ => rfl

theorem names_checkItems : ∀ (items : List Item) (c : Checker), (checkItems c items).names = c.names
  | [], _ => rfl
  | .value e _ :: rest, c => by
      simp only [checkItems]
      rw [names_checkItems rest, names_checkNested, (checkColumns_quiet _ _ _).names]
  | .star :: rest, c => names_checkItems rest c
  | .starOf _ :: rest, c => names_checkItems rest c

theorem names_checkOption : ∀ (e : Option Expression) (c : Checker),
    (checkOption c e).names = c.names
  | none, _ => rfl
  | some e, c => by
      simp only [checkOption]
      rw [names_checkNested, (checkColumns_quiet _ _ _).names]

theorem names_checkAll (aliases : List Text) : ∀ (es : List Expression) (c : Checker),
    (checkAll aliases c es).names = c.names
  | [], _ => rfl
  | e :: rest, c => by
      simp only [checkAll]
      rw [names_checkAll aliases rest, names_checkNested, (checkColumns_quiet _ _ _).names]

theorem names_checkNested : ∀ (e : Expression) (c : Checker), (checkNested c e).names = c.names
  | .column _, _ => rfl
  | .subquery query, c => names_checkQuery false query c
  | .all parts, c => by
      simp only [checkNested]
      exact names_checkNestedAll parts c
  | .literal, _ => rfl

theorem names_checkNestedAll : ∀ (es : List Expression) (c : Checker),
    (checkNestedAll c es).names = c.names
  | [], _ => rfl
  | e :: rest, c => by
      simp only [checkNestedAll]
      rw [names_checkNestedAll rest, names_checkNested]

end

end Checker

end SqlInsight.Validation
