/-
Two checks of one statement side by side. A check goes through a statement in an order that nothing
it has found changes, so a relation between two checks that every single step keeps holds when both
are through.
-/
import SqlInsight.Validation.Walk

namespace SqlInsight.Validation.Checker

open Outline

/-- A relation between two checks that their steps keep, each check taking what names stand for from
what is in its own sight. Both have as many common table expressions in sight. -/
structure InStep (R : Checker → Checker → Prop) : Prop where
  count : ∀ {c c'}, R c c' → c'.names.ctes.length = c.names.ctes.length
  declare : ∀ {c c'} (cte), R c c' → R (c.declare cte) (c'.declare cte)
  declareQuery : ∀ {c c'} (name listed query), R c c' →
    R (c.declare ⟨name, Option.or listed (queryColumns? c.names query)⟩)
      (c'.declare ⟨name, Option.or listed (queryColumns? c'.names query)⟩)
  forget : ∀ {c c'} (count), R c c' → R (c.forget count) (c'.forget count)
  enterSources : ∀ {c c' d d'} (sources), R c c' → R d d' →
    R (d.enter (scopeOfSources c.names sources)) (d'.enter (scopeOfSources c'.names sources))
  leave : ∀ {c c'}, R c c' → R c.leave c'.leave
  checkTable : ∀ {c c'} (name), R c c' → R (c.checkTable name) (c'.checkTable name)
  checkTargets : ∀ {c c' d d'} (name columns), R c c' → R d d' →
    R (d.checkTargets (c.names.meaning? name) columns)
      (d'.checkTargets (c'.names.meaning? name) columns)
  checkColumn : ∀ {c c'} (aliases column), R c c' →
    R (checkColumn aliases c column) (checkColumn aliases c' column)
  endSelect : ∀ {c c'} (isOutermost select), R c c' →
    R (endSelect isOutermost c select) (endSelect isOutermost c' select)
  adviseUpdate : ∀ {c c' d d'} (table), R c c' → R d d' →
    R (if c.settings.missingWhere then d.adviseUpdate table else d)
      (if c'.settings.missingWhere then d'.adviseUpdate table else d')
  adviseDelete : ∀ {c c' d d'}, R c c' → R d d' →
    R (if c.settings.missingWhere then d.adviseDelete else d)
      (if c'.settings.missingWhere then d'.adviseDelete else d')

theorem related_foldl {R : Checker → Checker → Prop} {α : Type} {f : Checker → α → Checker}
    (hf : ∀ {c c'} (x), R c c' → R (f c x) (f c' x)) (xs : List α) {c c' : Checker}
    (h : R c c') : R (xs.foldl f c) (xs.foldl f c') := by
  induction xs generalizing c c' with
  | nil => exact h
  | cons x rest ih =>
      apply ih
      exact hf x h

/-- A missing table has no columns to check, and neither has what is unknown. -/
theorem checkTargets_getD (c : Checker) (meaning : Option Meaning) (columns : List Text) :
    c.checkTargets (some (meaning.getD .unknown)) columns = c.checkTargets meaning columns := by
  cases meaning <;> rfl

namespace InStep

variable {R : Checker → Checker → Prop}

theorem checkColumns (hR : InStep R) (aliases : List Text) (e : Expression) {c c' : Checker}
    (h : R c c') : R (Checker.checkColumns aliases c e) (Checker.checkColumns aliases c' e) :=
  related_foldl (hR.checkColumn aliases) e.columns h

mutual

theorem checkQuery (hR : InStep R) (isOutermost : Bool) : ∀ (q : Query) {c c' : Checker},
    R c c' →
    R (Checker.checkQuery isOutermost c q) (Checker.checkQuery isOutermost c' q)
  | .mk ctes selects order, c, c', h => by
      have hlength := hR.count h
      have hctes := hR.checkCtes ctes h
      match selects with
      | [select] =>
          have hselect := hR.beginSelect select hctes
          have horder := hR.checkAll (aliasesOf select.items) order hselect
          have hend := hR.endSelect isOutermost select horder
          have hforget := hR.forget c.names.ctes.length hend
          simpa only [Checker.checkQuery, hlength] using hforget
      | [] =>
          have hselects := hR.checkSelects isOutermost [] hctes
          have horder := hR.checkNestedAll order hselects
          have hforget := hR.forget c.names.ctes.length horder
          simpa only [Checker.checkQuery, hlength] using hforget
      | first :: second :: more =>
          have hselects := hR.checkSelects isOutermost (first :: second :: more) hctes
          have horder := hR.checkNestedAll order hselects
          have hforget := hR.forget c.names.ctes.length horder
          simpa only [Checker.checkQuery, hlength] using hforget

theorem checkCtes (hR : InStep R) : ∀ (ctes : List Cte) {c c' : Checker}, R c c' →
    R (Checker.checkCtes c ctes) (Checker.checkCtes c' ctes)
  | [], _, _, h => h
  | .mk name columns query :: rest, c, c', h => by
      have hlength := hR.count h
      have hself := hR.declare ⟨name, if columns.isEmpty then none else some columns⟩ h
      have hquery := hR.checkQuery false query hself
      have hforget := hR.forget c.names.ctes.length hquery
      simp only [Checker.checkCtes, hlength]
      apply hR.checkCtes rest
      exact hR.declareQuery name _ query hforget

theorem checkSelects (hR : InStep R) (isOutermost : Bool) : ∀ (selects : List Select)
    {c c' : Checker}, R c c' →
    R (Checker.checkSelects isOutermost c selects) (Checker.checkSelects isOutermost c' selects)
  | [], _, _, h => h
  | select :: rest, _, _, h => by
      have hselect := hR.endSelect isOutermost select (hR.beginSelect select h)
      exact hR.checkSelects isOutermost rest hselect

theorem beginSelect (hR : InStep R) : ∀ (select : Select) {c c' : Checker}, R c c' →
    R (Checker.beginSelect c select) (Checker.beginSelect c' select)
  | .mk items sources selection groups having, c, c', h => by
      have hscope := hR.enterSources sources h (hR.checkSources sources h)
      have hitems := hR.checkItems items (hR.checkJoined sources hscope)
      have hgroups := hR.checkAll [] groups (hR.checkOption selection hitems)
      exact hR.checkOption having hgroups

theorem checkSources (hR : InStep R) : ∀ (sources : List Source) {c c' : Checker}, R c c' →
    R (Checker.checkSources c sources) (Checker.checkSources c' sources)
  | [], _, _, h => h
  | source :: rest, _, _, h => hR.checkSources rest (hR.checkSource source h)

theorem checkSource (hR : InStep R) : ∀ (source : Source) {c c' : Checker}, R c c' →
    R (Checker.checkSource c source) (Checker.checkSource c' source)
  | .mk relation joins, _, _, h => hR.checkJoins joins (hR.checkRelation relation h)

theorem checkJoins (hR : InStep R) : ∀ (joins : List Join) {c c' : Checker}, R c c' →
    R (Checker.checkJoins c joins) (Checker.checkJoins c' joins)
  | [], _, _, h => h
  | .mk relation _ :: rest, _, _, h => hR.checkJoins rest (hR.checkRelation relation h)

theorem checkRelation (hR : InStep R) : ∀ (relation : Relation) {c c' : Checker}, R c c' →
    R (Checker.checkRelation c relation) (Checker.checkRelation c' relation)
  | .table name _, _, _, h => hR.checkTable name h
  | .derived query _, _, _, h => hR.checkQuery false query h
  | .nested source, _, _, h => hR.checkSource source h
  | .other _, _, _, h => h

theorem checkJoined (hR : InStep R) : ∀ (sources : List Source) {c c' : Checker}, R c c' →
    R (Checker.checkJoined c sources) (Checker.checkJoined c' sources)
  | [], _, _, h => h
  | source :: rest, _, _, h => hR.checkJoined rest (hR.checkConditions source h)

theorem checkConditions (hR : InStep R) : ∀ (source : Source) {c c' : Checker}, R c c' →
    R (Checker.checkConditions c source) (Checker.checkConditions c' source)
  | .mk relation joins, _, _, h => hR.checkJoinConditions joins (hR.checkGroup relation h)

theorem checkJoinConditions (hR : InStep R) : ∀ (joins : List Join) {c c' : Checker}, R c c' →
    R (Checker.checkJoinConditions c joins) (Checker.checkJoinConditions c' joins)
  | [], _, _, h => h
  | .mk relation on :: rest, _, _, h =>
      hR.checkJoinConditions rest (hR.checkOption on (hR.checkGroup relation h))

theorem checkGroup (hR : InStep R) : ∀ (relation : Relation) {c c' : Checker}, R c c' →
    R (Checker.checkGroup c relation) (Checker.checkGroup c' relation)
  | .table _ _, _, _, h => h
  | .derived _ _, _, _, h => h
  | .nested source, _, _, h => hR.checkConditions source h
  | .other _, _, _, h => h

theorem checkItems (hR : InStep R) : ∀ (items : List Item) {c c' : Checker}, R c c' →
    R (Checker.checkItems c items) (Checker.checkItems c' items)
  | [], _, _, h => h
  | .value e _ :: rest, _, _, h =>
      hR.checkItems rest (hR.checkNested e (hR.checkColumns [] e h))
  | .star :: rest, _, _, h => hR.checkItems rest h
  | .starOf _ :: rest, _, _, h => hR.checkItems rest h

theorem checkOption (hR : InStep R) : ∀ (e : Option Expression) {c c' : Checker}, R c c' →
    R (Checker.checkOption c e) (Checker.checkOption c' e)
  | none, _, _, h => h
  | some e, _, _, h => hR.checkNested e (hR.checkColumns [] e h)

theorem checkAll (hR : InStep R) (aliases : List Text) : ∀ (es : List Expression)
    {c c' : Checker}, R c c' →
    R (Checker.checkAll aliases c es) (Checker.checkAll aliases c' es)
  | [], _, _, h => h
  | e :: rest, _, _, h => hR.checkAll aliases rest (hR.checkNested e (hR.checkColumns aliases e h))

theorem checkNested (hR : InStep R) : ∀ (e : Expression) {c c' : Checker}, R c c' →
    R (Checker.checkNested c e) (Checker.checkNested c' e)
  | .column _, _, _, h => h
  | .subquery query, _, _, h => hR.checkQuery false query h
  | .all parts, _, _, h => hR.checkNestedAll parts h
  | .literal, _, _, h => h

theorem checkNestedAll (hR : InStep R) : ∀ (es : List Expression) {c c' : Checker}, R c c' →
    R (Checker.checkNestedAll c es) (Checker.checkNestedAll c' es)
  | [], _, _, h => h
  | e :: rest, _, _, h => hR.checkNestedAll rest (hR.checkNested e h)

end

theorem checkStatement (hR : InStep R) (t : Text) (statement : Statement) {c c' : Checker}
    (h : R c c') : R (c.checkStatement t statement) (c'.checkStatement t statement) := by
  cases statement with
  | select query => exact hR.checkQuery true query h
  | insert table columns source =>
      have htargets := hR.checkTargets table columns h (hR.checkTable table h)
      cases source with
      | none => exact htargets
      | some query => exact hR.checkQuery false query htargets
  | update table alias? assigned values selection =>
      simp only [Checker.checkStatement]
      have hfinish {d d' : Checker} (hd : R d d') :
          R (if selection.isNone && c.settings.missingWhere then d.adviseUpdate table else d)
            (if selection.isNone && c'.settings.missingWhere then d'.adviseUpdate table
              else d') := by
        cases selection.isNone
        · exact hd
        · exact hR.adviseUpdate table h hd
      apply hfinish
      cases updatesFrom t
      · have hrest {d d' : Checker} (hd : R d d') :=
          hR.leave (hR.checkOption selection (hR.checkAll [] values hd))
        apply hrest
        cases table with
        | none => exact hR.enterSources [] h h
        | some name =>
            have htargets := hR.checkTargets name assigned h (hR.checkTable name h)
            have hscope := hR.enterSources [.mk (.table name alias?) []] h htargets
            simpa [scopeOfSources, scopeOfSource, scopeOfJoins, scopeOfRelation,
              Checker.checkRelation, checkTargets_getD] using hscope
      · exact h
  | delete sources selection =>
      have hscope := hR.enterSources sources h (hR.checkSources sources h)
      have hselection := hR.leave (hR.checkOption selection (hR.checkJoined sources hscope))
      simp only [Checker.checkStatement]
      cases selection.isNone
      · exact hselection
      · exact hR.adviseDelete h hselection
  | other => exact h

end InStep

/-- A relation between two checks with the same names in sight that the steps of a check keep. -/
structure Lockstep (R : Checker → Checker → Prop) : Prop where
  names : ∀ {c c'}, R c c' → c'.names = c.names
  declare : ∀ {c c'} (cte), R c c' → R (c.declare cte) (c'.declare cte)
  forget : ∀ {c c'} (count), R c c' → R (c.forget count) (c'.forget count)
  enter : ∀ {c c'} (scope), R c c' → R (c.enter scope) (c'.enter scope)
  leave : ∀ {c c'}, R c c' → R c.leave c'.leave
  checkTable : ∀ {c c'} (name), R c c' → R (c.checkTable name) (c'.checkTable name)
  checkTarget : ∀ {c c'} (t column), R c c' →
    R (checkTarget t c column) (checkTarget t c' column)
  checkColumn : ∀ {c c'} (aliases column), R c c' →
    R (checkColumn aliases c column) (checkColumn aliases c' column)
  endSelect : ∀ {c c'} (isOutermost select), R c c' →
    R (endSelect isOutermost c select) (endSelect isOutermost c' select)
  adviseUpdate : ∀ {c c' d d'} (table), R c c' → R d d' →
    R (if c.settings.missingWhere then d.adviseUpdate table else d)
      (if c'.settings.missingWhere then d'.adviseUpdate table else d')
  adviseDelete : ∀ {c c' d d'}, R c c' → R d d' →
    R (if c.settings.missingWhere then d.adviseDelete else d)
      (if c'.settings.missingWhere then d'.adviseDelete else d')

namespace Lockstep

variable {R : Checker → Checker → Prop}

/-- Checks with the same names in sight take the same from them. -/
theorem inStep (hR : Lockstep R) : InStep R where
  count h := by rw [hR.names h]
  declare := hR.declare
  declareQuery _ _ _ h := by
    rw [hR.names h]
    exact hR.declare _ h
  forget := hR.forget
  enterSources _ h hd := by
    rw [hR.names h]
    exact hR.enter _ hd
  leave := hR.leave
  checkTable := hR.checkTable
  checkTargets name columns h hd := by
    rw [hR.names h]
    unfold Checker.checkTargets
    split
    · exact related_foldl (hR.checkTarget _) columns hd
    · exact hd
  checkColumn := hR.checkColumn
  endSelect := hR.endSelect
  adviseUpdate := hR.adviseUpdate
  adviseDelete := hR.adviseDelete

theorem checkStatement (hR : Lockstep R) (t : Text) (statement : Statement) {c c' : Checker}
    (h : R c c') : R (c.checkStatement t statement) (c'.checkStatement t statement) :=
  hR.inStep.checkStatement t statement h

end Lockstep

end SqlInsight.Validation.Checker
