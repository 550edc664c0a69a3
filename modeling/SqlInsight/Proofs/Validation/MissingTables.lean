/-
The tables that a check reports as missing. A check passes a `FROM` list twice, once for the tables
and once for the conditions of the joins, and looks up every name among the common table expressions
in sight, which are those visible there. So what it reports are the unresolved tables that the
statement uses, each as often as it is used.
-/
import SqlInsight.Proofs.Outline.Uses
import SqlInsight.Validation

namespace SqlInsight.Validation

open Outline

/-- A table that means nothing where it is used: it does not belong to the session and is not the
one put at the end of a text, no visible common table expression has its name, it is not in the
snapshot, and it does not belong to the database system. -/
def Unresolved (schema : Schema) (use : TableUse) : Prop :=
  use.table.isSession = false ∧ isPlaceholder use.table.name = false ∧
    (use.table.schema = none → ∀ cte ∈ use.visible, cte.sameAscii use.table.name = false) ∧
    schema.table? use.table.schema use.table.name = none ∧ Names.isSystem use.table = false

instance (schema : Schema) : DecidablePred (Unresolved schema) := fun _ =>
  inferInstanceAs (Decidable (_ ∧ _ ∧ _ ∧ _ ∧ _))

/-- The findings for those of some tables that are unresolved. -/
def missing (s : Settings) (schema : Schema) (uses : List TableUse) : List Finding :=
  (uses.filter (Unresolved schema ·)).map fun use =>
    Checker.missingTable ⟨s, ⟨schema, []⟩, [], []⟩ use.table

@[simp] theorem missing_append (s : Settings) (schema : Schema) (first second : List TableUse) :
    missing s schema (first ++ second) = missing s schema first ++ missing s schema second := by
  simp [missing]

namespace Checker

def reported (c : Checker) : List Finding :=
  c.findings.filter (·.code = .tableNotFound)

/-- A check under these settings, against that snapshot, with common table expressions of these
names in sight. -/
structure Sees (s : Settings) (schema : Schema) (visible : List Text) (c : Checker) : Prop where
  settings : c.settings = s
  schema : c.names.schema = schema
  ctes : c.names.ctes.map CteColumns.name = visible

/-- Two states of a check that differ in open scopes and in findings of other kinds only. -/
structure Quiet (c c' : Checker) : Prop where
  settings : c'.settings = c.settings
  names : c'.names = c.names
  reported : c'.reported = c.reported

/-- A check has gone on to a state that sees these names, and has reported the missing ones of some
tables on the way. -/
structure Reports (s : Settings) (schema : Schema) (visible : List Text) (uses : List TableUse)
    (c c' : Checker) : Prop where
  sees : c'.Sees s schema visible
  reported : c'.reported.Perm (c.reported ++ missing s schema uses)

theorem Quiet.refl (c : Checker) : Quiet c c := ⟨rfl, rfl, rfl⟩

theorem Quiet.trans {c c' c'' : Checker} (h : Quiet c c') (h' : Quiet c' c'') : Quiet c c'' :=
  ⟨h'.settings.trans h.settings, h'.names.trans h.names, h'.reported.trans h.reported⟩

theorem report_quiet (c : Checker) {f : Finding} (hf : f.code ≠ .tableNotFound) :
    Quiet c (c.report f) :=
  ⟨rfl, rfl, by simp [Checker.reported, report, hf]⟩

theorem enter_quiet (c : Checker) (scope : Scope) : Quiet c (c.enter scope) := ⟨rfl, rfl, rfl⟩

theorem leave_quiet (c : Checker) : Quiet c c.leave := ⟨rfl, rfl, rfl⟩

/-- What leads from each state to the next leads through a whole run. -/
theorem rel_foldl {R : Checker → Checker → Prop} (hrefl : ∀ c, R c c)
    (htrans : ∀ {c c' c'' : Checker}, R c c' → R c' c'' → R c c'') {α : Type}
    {f : Checker → α → Checker} (hf : ∀ c x, R c (f c x)) (xs : List α) (c : Checker) :
    R c (xs.foldl f c) := by
  induction xs generalizing c with
  | nil => exact hrefl c
  | cons x rest ih => exact htrans (hf c x) (ih (f c x))

theorem foldl_quiet {α : Type} {f : Checker → α → Checker} (hf : ∀ c x, Quiet c (f c x))
    (xs : List α) (c : Checker) : Quiet c (xs.foldl f c) :=
  rel_foldl Quiet.refl Quiet.trans hf xs c

theorem checkQualified_quiet (c : Checker) (qualifier name : Text) :
    Quiet c (c.checkQualified qualifier name) := by
  unfold checkQualified
  split
  · exact Quiet.refl c
  · split
    · exact report_quiet c (by simp [missingColumn])
    · exact Quiet.refl c

theorem checkUnqualified_quiet (c : Checker) (name : Text) :
    Quiet c (c.checkUnqualified name) := by
  unfold checkUnqualified
  split
  · exact Quiet.refl c
  · exact report_quiet c (by simp)
  · exact report_quiet c (by simp)

theorem checkColumn_quiet (aliases : List Text) (c : Checker) (column : Column) :
    Quiet c (checkColumn aliases c column) := by
  unfold checkColumn
  split
  · exact checkQualified_quiet c _ _
  · split
    · exact Quiet.refl c
    · exact checkUnqualified_quiet c _

theorem checkColumns_quiet (aliases : List Text) (c : Checker) (e : Expression) :
    Quiet c (checkColumns aliases c e) :=
  foldl_quiet (checkColumn_quiet aliases) e.columns c

theorem checkTargets_quiet (c : Checker) (meaning : Option Meaning) (columns : List Text) :
    Quiet c (c.checkTargets meaning columns) := by
  unfold checkTargets
  split
  · refine foldl_quiet (fun c column => ?_) columns c
    unfold checkTarget
    split
    · exact Quiet.refl c
    · exact report_quiet c (by simp [missingColumn])
  · exact Quiet.refl c

theorem endSelect_quiet (isOutermost : Bool) (c : Checker) (select : Select) :
    Quiet c (endSelect isOutermost c select) := by
  unfold endSelect
  refine (leave_quiet c).trans ?_
  dsimp only
  split
  · exact report_quiet _ (by simp)
  · exact Quiet.refl _

variable {s : Settings} {schema : Schema} {visible : List Text} {c c' : Checker}

theorem Sees.quiet (h : c.Sees s schema visible) (hquiet : Quiet c c') :
    c'.Sees s schema visible :=
  ⟨hquiet.settings.trans h.settings, by rw [hquiet.names, h.schema],
    by rw [hquiet.names, h.ctes]⟩

theorem Sees.length (h : c.Sees s schema visible) : c.names.ctes.length = visible.length := by
  rw [← h.ctes, List.length_map]

theorem Sees.declare (h : c.Sees s schema visible) (cte : CteColumns) :
    (c.declare cte).Sees s schema (cte.name :: visible) :=
  ⟨h.settings, h.schema, by simp [Checker.declare, h.ctes]⟩

theorem Reports.of_quiet (h : c.Sees s schema visible) (hquiet : Quiet c c') :
    Reports s schema visible [] c c' :=
  ⟨h.quiet hquiet, by simp [missing, hquiet.reported]⟩

theorem Reports.trans {visible' : List Text} {first second : List TableUse} {c'' : Checker}
    (h : Reports s schema visible first c c') (h' : Reports s schema visible' second c' c'') :
    Reports s schema visible' (first ++ second) c c'' := by
  refine ⟨h'.sees, ?_⟩
  rw [missing_append, ← List.append_assoc]
  exact h'.reported.trans (h.reported.append_right _)

theorem Reports.quiet {uses : List TableUse} {c'' : Checker}
    (h : Reports s schema visible uses c c') (hquiet : Quiet c' c'') :
    Reports s schema visible uses c c'' := by
  simpa using h.trans (Reports.of_quiet h.sees hquiet)

theorem Reports.perm {uses uses' : List TableUse} (h : Reports s schema visible uses c c')
    (hperm : uses.Perm uses') : Reports s schema visible uses' c c' :=
  ⟨h.sees, h.reported.trans (((hperm.filter _).map _).append_left _)⟩

theorem Reports.of_declare {uses : List TableUse} {cte : CteColumns}
    (h : Reports s schema visible uses (c.declare cte) c') : Reports s schema visible uses c c' :=
  ⟨h.sees, h.reported⟩

/-- What came into sight on the way can be forgotten. -/
theorem Reports.forget (declared : List Text) {uses : List TableUse} {count : Nat}
    (h : Reports s schema (declared ++ visible) uses c c') (hcount : count = visible.length) :
    Reports s schema visible uses c (c'.forget count) := by
  refine ⟨⟨h.sees.settings, h.sees.schema, ?_⟩, h.reported⟩
  have hlength : c'.names.ctes.length = declared.length + visible.length := by
    rw [h.sees.length, List.length_append]
  change (c'.names.ctes.drop (c'.names.ctes.length - count)).map CteColumns.name = visible
  rw [List.map_drop, h.sees.ctes, hlength, hcount, Nat.add_sub_cancel, List.drop_left]

theorem cte?_eq_none_iff (h : c.Sees s schema visible) (name : TableName) :
    c.names.cte? name = none ↔
      (name.schema = none → ∀ cte ∈ visible, cte.sameAscii name.name = false) := by
  rw [← h.ctes, Names.cte?]
  cases name.schema with
  | some _ => simp
  | none => simp

/-- A name means nothing to a check where its table is unresolved. -/
theorem meaning?_eq_none_iff (h : c.Sees s schema visible) (name : TableName) :
    c.names.meaning? name = none ↔ Unresolved schema ⟨visible, name⟩ := by
  unfold Unresolved
  rw [← cte?_eq_none_iff h name, ← h.schema, Names.meaning?]
  cases name.isSession <;> cases isPlaceholder name.name <;> cases c.names.cte? name <;>
    cases c.names.schema.table? name.schema name.name <;> simp

theorem reported_report (c : Checker) {f : Finding} (hf : f.code = .tableNotFound) :
    (c.report f).reported = c.reported ++ [f] := by
  simp [Checker.reported, report, hf]

theorem missingTable_eq (h : c.Sees s schema visible) (name : TableName) :
    c.missingTable name = missingTable ⟨s, ⟨schema, []⟩, [], []⟩ name := by
  simp only [missingTable, suggest?, Names.tableNamesFor, h.settings, h.schema]

/-- A check of a table reports it if it is unresolved. -/
theorem checkTable_reports (h : c.Sees s schema visible) (name : TableName) :
    Reports s schema visible [⟨visible, name⟩] c (c.checkTable name) := by
  have hnone := meaning?_eq_none_iff h name
  unfold checkTable
  cases hmeaning : c.names.meaning? name with
  | some meaning =>
      have hresolved : ¬ Unresolved schema ⟨visible, name⟩ := by
        rw [← hnone, hmeaning]
        simp
      exact ⟨h, by simp [missing, hresolved]⟩
  | none =>
      have hunresolved := hnone.mp hmeaning
      refine ⟨⟨h.settings, h.schema, h.ctes⟩, ?_⟩
      rw [reported_report c rfl, missingTable_eq h]
      simp [missing, hunresolved]

/-- The columns of an expression are checked before the queries in it. -/
theorem checkColumns_reports {uses : List TableUse} {e : Expression} (aliases : List Text)
    (h : c.Sees s schema visible)
    (hnested : ∀ c, c.Sees s schema visible → Reports s schema visible uses c (checkNested c e)) :
    Reports s schema visible uses c (checkNested (checkColumns aliases c e) e) := by
  have hcolumns := Reports.of_quiet h (checkColumns_quiet aliases c e)
  exact hcolumns.trans (hnested _ hcolumns.sees)

/-- Two passes over a part of a `FROM` list, which together report the missing ones of some
tables. -/
def Splits (s : Settings) (schema : Schema) (visible : List Text) (uses : List TableUse)
    (first second : Checker → Checker) : Prop :=
  ∃ xs ys, (xs ++ ys).Perm uses ∧
    (∀ c, c.Sees s schema visible → Reports s schema visible xs c (first c)) ∧
    ∀ c, c.Sees s schema visible → Reports s schema visible ys c (second c)

theorem Splits.nil : Splits s schema visible [] id id :=
  ⟨[], [], List.Perm.refl _, fun _ h => Reports.of_quiet h (Quiet.refl _),
    fun _ h => Reports.of_quiet h (Quiet.refl _)⟩

theorem Splits.of_first {uses : List TableUse} {first : Checker → Checker}
    (h : ∀ c, c.Sees s schema visible → Reports s schema visible uses c (first c)) :
    Splits s schema visible uses first id :=
  ⟨uses, [], by simp, h, fun _ hc => Reports.of_quiet hc (Quiet.refl _)⟩

theorem Splits.of_second {uses : List TableUse} {second : Checker → Checker}
    (h : ∀ c, c.Sees s schema visible → Reports s schema visible uses c (second c)) :
    Splits s schema visible uses id second :=
  ⟨[], uses, by simp, fun _ hc => Reports.of_quiet hc (Quiet.refl _), h⟩

/-- One part after another. -/
theorem Splits.append {uses uses' : List TableUse} {first second first' second' : Checker → Checker}
    (h : Splits s schema visible uses first second)
    (h' : Splits s schema visible uses' first' second') :
    Splits s schema visible (uses ++ uses') (fun c => first' (first c))
      fun c => second' (second c) := by
  obtain ⟨xs, ys, hperm, hfirst, hsecond⟩ := h
  obtain ⟨xs', ys', hperm', hfirst', hsecond'⟩ := h'
  refine ⟨xs ++ xs', ys ++ ys', ?_, fun c hc => ?_, fun c hc => ?_⟩
  · have hmiddle : (xs' ++ (ys ++ ys')).Perm (ys ++ (xs' ++ ys')) := by
      rw [← List.append_assoc, ← List.append_assoc]
      exact List.perm_append_comm.append_right ys'
    rw [List.append_assoc]
    refine (hmiddle.append_left xs).trans ?_
    rw [← List.append_assoc]
    exact hperm.append hperm'
  · exact (hfirst c hc).trans (hfirst' _ (hfirst c hc).sees)
  · exact (hsecond c hc).trans (hsecond' _ (hsecond c hc).sees)

/-- Both passes with a quiet step between them. -/
theorem Splits.reports {uses : List TableUse} {first second : Checker → Checker}
    (h : Splits s schema visible uses first second) (hc : c.Sees s schema visible)
    (hquiet : Quiet (first c) c') : Reports s schema visible uses c (second c') := by
  obtain ⟨xs, ys, hperm, hfirst, hsecond⟩ := h
  have hxs := (hfirst c hc).quiet hquiet
  exact (hxs.trans (hsecond c' hxs.sees)).perm hperm

mutual

theorem checkQuery_reports (isOutermost : Bool) : ∀ (q : Query) {c : Checker} {visible : List Text},
    c.Sees s schema visible →
      Reports s schema visible (q.uses visible) c (checkQuery isOutermost c q)
  | .mk ctes [select] order, c, visible, h => by
      have hctes := checkCtes_reports ctes h
      have hselect := beginSelect_reports select hctes.sees
      have horder := checkAll_reports (aliasesOf select.items) order hselect.sees
      have hend := (hctes.trans (hselect.trans horder)).quiet (endSelect_quiet isOutermost _ select)
      have huses : (Query.mk ctes [select] order).uses visible = usesOfCtes visible ctes ++
          (select.uses (visibleBehind visible ctes) ++
            usesOfAll (visibleBehind visible ctes) order) := by
        simp [Query.uses, usesOfSelects]
      rw [huses]
      exact Reports.forget _ hend h.length
  | .mk ctes [] order, c, visible, h => by
      have hctes := checkCtes_reports ctes h
      have hselects := checkSelects_reports isOutermost [] hctes.sees
      have horder := checkNestedAll_reports order hselects.sees
      have hend := (hctes.trans hselects).trans horder
      exact Reports.forget _ hend h.length
  | .mk ctes (first :: second :: more) order, c, visible, h => by
      have hctes := checkCtes_reports ctes h
      have hselects := checkSelects_reports isOutermost (first :: second :: more) hctes.sees
      have horder := checkNestedAll_reports order hselects.sees
      have hend := (hctes.trans hselects).trans horder
      exact Reports.forget _ hend h.length

theorem checkCtes_reports : ∀ (ctes : List Cte) {c : Checker} {visible : List Text},
    c.Sees s schema visible →
      Reports s schema (visibleBehind visible ctes) (usesOfCtes visible ctes) c (checkCtes c ctes)
  | [], _, _, h => Reports.of_quiet h (Quiet.refl _)
  | .mk name columns query :: rest, c, visible, h => by
      have hbehind : visibleBehind visible (.mk name columns query :: rest) =
          visibleBehind (name :: visible) rest := by
        simp [visibleBehind, Cte.name]
      rw [hbehind]
      have hself := h.declare ⟨name, if columns.isEmpty then none else some columns⟩
      have hquery := checkQuery_reports false query hself
      have hforget := (Reports.forget [name] hquery h.length).of_declare
      have hrest (known : Option (List Text)) :=
        (checkCtes_reports rest (hforget.sees.declare ⟨name, known⟩)).of_declare
      exact hforget.trans (hrest _)

theorem checkSelects_reports (isOutermost : Bool) : ∀ (selects : List Select) {c : Checker}
    {visible : List Text}, c.Sees s schema visible →
      Reports s schema visible (usesOfSelects visible selects) c
        (checkSelects isOutermost c selects)
  | [], _, _, h => Reports.of_quiet h (Quiet.refl _)
  | select :: rest, c, visible, h => by
      have hselect := (beginSelect_reports select h).quiet (endSelect_quiet isOutermost _ select)
      exact hselect.trans (checkSelects_reports isOutermost rest hselect.sees)

theorem beginSelect_reports : ∀ (select : Select) {c : Checker} {visible : List Text},
    c.Sees s schema visible →
      Reports s schema visible (select.uses visible) c (beginSelect c select)
  | .mk items sources selection groups having, c, visible, h => by
      have hfrom := (checkSources_splits sources).reports h
        (enter_quiet _ (scopeOfSources c.names sources))
      have hitems := hfrom.trans (checkItems_reports items hfrom.sees)
      have hselection := hitems.trans (checkOption_reports selection hitems.sees)
      have hgroups := hselection.trans (checkAll_reports [] groups hselection.sees)
      exact hgroups.trans (checkOption_reports having hgroups.sees)

theorem checkSources_splits {visible : List Text} : ∀ (sources : List Source),
    Splits s schema visible (usesOfSources visible sources) (checkSources · sources)
      (checkJoined · sources)
  | [] => Splits.nil
  | source :: rest => (checkSource_splits source).append (checkSources_splits rest)

theorem checkSource_splits {visible : List Text} : ∀ (source : Source),
    Splits s schema visible (source.uses visible) (checkSource · source) (checkConditions · source)
  | .mk relation joins => (checkRelation_splits relation).append (checkJoins_splits joins)

theorem checkJoins_splits {visible : List Text} : ∀ (joins : List Join),
    Splits s schema visible (usesOfJoins visible joins) (checkJoins · joins)
      (checkJoinConditions · joins)
  | [] => Splits.nil
  | .mk relation on :: rest =>
      ((checkRelation_splits relation).append (Splits.of_second fun _ h =>
        checkOption_reports on h)).append (checkJoins_splits rest)

theorem checkRelation_splits {visible : List Text} : ∀ (relation : Relation),
    Splits s schema visible (relation.uses visible) (checkRelation · relation)
      (checkGroup · relation)
  | .table name _ => Splits.of_first fun _ h => checkTable_reports h name
  | .derived query _ => Splits.of_first fun _ h => checkQuery_reports false query h
  | .nested source => checkSource_splits source
  | .other _ => Splits.nil

theorem checkItems_reports : ∀ (items : List Item) {c : Checker} {visible : List Text},
    c.Sees s schema visible →
      Reports s schema visible (usesOfItems visible items) c (checkItems c items)
  | [], _, _, h => Reports.of_quiet h (Quiet.refl _)
  | .value e _ :: rest, _, _, h => by
      have hvalue := checkColumns_reports [] h fun _ => checkNested_reports e
      exact hvalue.trans (checkItems_reports rest hvalue.sees)
  | .star :: rest, _, _, h => checkItems_reports rest h
  | .starOf _ :: rest, _, _, h => checkItems_reports rest h

theorem checkOption_reports : ∀ (e : Option Expression) {c : Checker} {visible : List Text},
    c.Sees s schema visible →
      Reports s schema visible (usesOfOption visible e) c (checkOption c e)
  | none, _, _, h => Reports.of_quiet h (Quiet.refl _)
  | some e, _, _, h => checkColumns_reports [] h fun _ => checkNested_reports e

theorem checkAll_reports (aliases : List Text) : ∀ (es : List Expression) {c : Checker}
    {visible : List Text}, c.Sees s schema visible →
      Reports s schema visible (usesOfAll visible es) c (checkAll aliases c es)
  | [], _, _, h => Reports.of_quiet h (Quiet.refl _)
  | e :: rest, c, visible, h => by
      have hfirst := checkColumns_reports aliases h fun _ => checkNested_reports e
      exact hfirst.trans (checkAll_reports aliases rest hfirst.sees)

theorem checkNested_reports : ∀ (e : Expression) {c : Checker} {visible : List Text},
    c.Sees s schema visible → Reports s schema visible (e.uses visible) c (checkNested c e)
  | .column _, _, _, h => Reports.of_quiet h (Quiet.refl _)
  | .subquery query, _, _, h => checkQuery_reports false query h
  | .all parts, _, _, h => checkNestedAll_reports parts h
  | .literal, _, _, h => Reports.of_quiet h (Quiet.refl _)

theorem checkNestedAll_reports : ∀ (es : List Expression) {c : Checker} {visible : List Text},
    c.Sees s schema visible →
      Reports s schema visible (usesOfAll visible es) c (checkNestedAll c es)
  | [], _, _, h => Reports.of_quiet h (Quiet.refl _)
  | e :: rest, c, visible, h => by
      have hfirst := checkNested_reports e h
      exact hfirst.trans (checkNestedAll_reports rest hfirst.sees)

end

/-- A check of a statement reports the unresolved tables that it uses, unless it is an update with a
`FROM` list of its own, which is not checked. -/
theorem checkStatement_reports {t : Text} : ∀ {statement : Statement},
    (statement.kind = "UPDATE" → updatesFrom t = false) → c.Sees s schema [] →
      Reports s schema [] statement.uses c (c.checkStatement t statement)
  | .select query, _, h => checkQuery_reports true query h
  | .insert table columns source, _, h => by
      have htable := (checkTable_reports h table).quiet
        (checkTargets_quiet _ (c.names.meaning? table) columns)
      cases source with
      | none => exact htable
      | some query => exact htable.trans (checkQuery_reports false query htable.sees)
  | .update table alias? assigned values selection, hfrom, h => by
      have htable : Reports s schema [] (table.toList.map (⟨[], ·⟩)) c
          ((table.toList.map fun name => Relation.table name alias?).foldl checkRelation c) := by
        cases table with
        | none => exact Reports.of_quiet h (Quiet.refl c)
        | some name => exact checkTable_reports h name
      have hscope (meaning : Option Meaning) (scope : Scope) :=
        htable.quiet ((checkTargets_quiet _ meaning assigned).trans (enter_quiet _ scope))
      have hvalues (meaning : Option Meaning) (scope : Scope) :=
        (hscope meaning scope).trans (checkAll_reports [] values (hscope meaning scope).sees)
      have hselection (meaning : Option Meaning) (scope : Scope) :=
        ((hvalues meaning scope).trans
          (checkOption_reports selection (hvalues meaning scope).sees)).quiet (leave_quiet _)
      simp only [checkStatement, hfrom rfl, Bool.false_eq_true, ↓reduceIte]
      split
      · exact (hselection _ _).quiet (report_quiet _ (by simp))
      · exact hselection _ _
  | .delete sources selection, _, h => by
      have hfrom := (checkSources_splits sources).reports h
        (enter_quiet _ (scopeOfSources c.names sources))
      have hselection := (hfrom.trans (checkOption_reports selection hfrom.sees)).quiet
        (leave_quiet _)
      unfold checkStatement
      dsimp only
      split
      · exact hselection.quiet (report_quiet _ (by simp))
      · exact hselection
  | .other, _, h => Reports.of_quiet h (Quiet.refl c)

end Checker

/-- The tables that a check of a statement reports as missing are the unresolved ones among those
that a walk through all of the statement meets, each as often as it is met. Only an update with a
`FROM` list of its own is left unchecked. -/
theorem statementFindings_missing (s : Settings) (schema : Schema) (statement : Statement)
    (t : Text) (hfrom : statement.kind = "UPDATE" → Checker.updatesFrom t = false) :
    ((statementFindings s schema statement t).filter (·.code = .tableNotFound)).Perm
        ((statement.uses.filter (Unresolved schema ·)).map fun use =>
          Checker.missingTable ⟨s, ⟨schema, []⟩, [], []⟩ use.table) ∧
      statement.uses.map TableUse.table =
        (statement.visits fun _ => true).filterMap Visit.table? := by
  have hsees : Checker.Sees s schema [] ⟨s, ⟨schema, []⟩, [], []⟩ := ⟨rfl, rfl, rfl⟩
  exact ⟨(Checker.checkStatement_reports hfrom hsees).reported, statement.map_table_uses⟩

/-- A common table expression that reads itself, joined to a table of its name in a schema on a
condition with a query over a third table. -/
def selfReading : Statement :=
  let reading (name : TableName) (joins : List Join) : List Select :=
    [.mk [.star] [.mk (.table name none) joins] none [] none]
  let other : TableName := ⟨some "dbo".toList, "a".toList⟩
  let condition : Expression := .subquery (.mk [] (reading ⟨none, "b".toList⟩ []) [])
  .select (.mk [.mk "a".toList [] (.mk [] (reading ⟨none, "A".toList⟩ []) [])]
    (reading ⟨none, "a".toList⟩ [.mk (.table other none) (some condition)]) [])

theorem statementFindings_selfReading :
    (((statementFindings {} (Schema.empty []) selfReading []).filter
      (·.code = .tableNotFound)).map Finding.anchor).Perm
        [.table (some "dbo".toList) "a".toList, .table none "b".toList] := by
  have hperm := (statementFindings_missing {} (Schema.empty []) selfReading [] (by decide)).1
  refine (hperm.map Finding.anchor).trans (List.Perm.of_eq ?_)
  decide

end SqlInsight.Validation
