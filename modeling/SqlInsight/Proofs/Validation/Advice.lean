/-
The advices of a check. Wherever a check goes, it leaves the settings and the open scopes as it
finds them and adds its findings behind those that are there. Only the end of a `SELECT` of the
outermost query, and the end of an update or a deletion, add an advice; so the advices about stars
are as many as the outermost `SELECT`s that deserve one.
-/
import SqlInsight.Proofs.Validation.MissingTables

namespace SqlInsight

/-- Whether a finding of that kind is an advice, and not about a name. -/
def Code.isAdvice : Code → Bool
  | selectStar | updateWithoutWhere | deleteWithoutWhere => true
  | syntaxError | tableNotFound | columnNotFound | ambiguousColumn => false

namespace Outline

/-- The tables that a `FROM` list names directly: those that a walk meets which enters no query. -/
def namedTables (sources : List Source) : List TableName :=
  tablesMet (visitsOfSources (fun _ => false) sources)

/-- The `SELECT`s of a statement that is a query, and not those of a query nested in it. -/
def Statement.outermostSelects : Statement → List Select
  | select query => query.selects
  | _ => []

/-- The names of the common table expressions that a statement which is a query declares, the last
one first. -/
def Statement.outermostCtes : Statement → List Text
  | select query => visibleBehind [] query.ctes
  | _ => []

/-- Whether a statement updates rows without a condition. -/
def Statement.updatesAll : Statement → Bool
  | update _ _ _ _ none => true
  | _ => false

/-- Whether a statement deletes rows without a condition. -/
def Statement.deletesAll : Statement → Bool
  | delete _ none => true
  | _ => false

mutual

theorem Expression.tablesMet_visits : ∀ e : Expression,
    tablesMet (e.visits fun _ => false) = []
  | .column _ => by simp [Expression.visits]
  | .subquery _ => by simp [Expression.visits]
  | .all parts => by
      simp only [Expression.visits]
      exact tablesMet_visitsOfAll parts
  | .literal => by simp [Expression.visits]

theorem tablesMet_visitsOfAll : ∀ es : List Expression,
    tablesMet (visitsOfAll (fun _ => false) es) = []
  | [] => rfl
  | e :: rest => by
      simp only [visitsOfAll, tablesMet_append]
      rw [e.tablesMet_visits, tablesMet_visitsOfAll rest]
      rfl

end

/-- A walk that enters no query meets no table in a condition. -/
theorem tablesMet_visitsOfOption (e : Option Expression) :
    tablesMet (visitsOfOption (fun _ => false) e) = [] := by
  cases e with
  | none => rfl
  | some e =>
      rw [visitsOfOption]
      exact e.tablesMet_visits

end Outline

namespace Validation

open Outline

/-- A `SELECT` deserves the advice about stars: it has a star and a `FROM` list, and none of the
tables that the list names directly is missing. -/
def DeservesAdvice (schema : Schema) (visible : List Text) (s : Select) : Prop :=
  (∃ item ∈ s.items, item.isStar = true) ∧ s.sources ≠ [] ∧
    ∀ name ∈ namedTables s.sources, ¬ Unresolved schema ⟨visible, name⟩

instance (schema : Schema) (visible : List Text) : DecidablePred (DeservesAdvice schema visible) :=
  fun _ => inferInstanceAs (Decidable (_ ∧ _ ∧ _))

mutual

theorem sourcesResolve_iff (n : Names) : ∀ sources : List Source,
    sourcesResolve n sources = true ↔
      ∀ name ∈ tablesMet (visitsOfSources (fun _ => false) sources), n.meaning? name ≠ none
  | [] => by simp [sourcesResolve, visitsOfSources]
  | source :: rest => by
      simp only [sourcesResolve, visitsOfSources, Bool.and_eq_true, tablesMet_append,
        List.forall_mem_append]
      rw [sourceResolves_iff n source, sourcesResolve_iff n rest]

theorem sourceResolves_iff (n : Names) : ∀ source : Source,
    sourceResolves n source = true ↔
      ∀ name ∈ tablesMet (source.visits fun _ => false), n.meaning? name ≠ none
  | .mk relation joins => by
      simp only [sourceResolves, Source.visits, Bool.and_eq_true, tablesMet_append,
        List.forall_mem_append]
      rw [relationResolves_iff n relation, joinsResolve_iff n joins]

theorem joinsResolve_iff (n : Names) : ∀ joins : List Join,
    joinsResolve n joins = true ↔
      ∀ name ∈ tablesMet (visitsOfJoins (fun _ => false) joins), n.meaning? name ≠ none
  | [] => by simp [joinsResolve, visitsOfJoins]
  | .mk relation on :: rest => by
      simp only [joinsResolve, visitsOfJoins, Bool.and_eq_true, tablesMet_append,
        tablesMet_visitsOfOption, List.append_nil, List.forall_mem_append]
      rw [relationResolves_iff n relation, joinsResolve_iff n rest]

theorem relationResolves_iff (n : Names) : ∀ relation : Relation,
    relationResolves n relation = true ↔
      ∀ name ∈ tablesMet (relation.visits fun _ => false), n.meaning? name ≠ none
  | .table name _ => by
      simp [relationResolves, Relation.visits, Option.isSome_iff_ne_none]
  | .derived _ _ => by simp [relationResolves, Relation.visits]
  | .nested source => by
      simp only [relationResolves, Relation.visits, tablesMet_nested]
      exact sourceResolves_iff n source
  | .other _ => by simp [relationResolves, Relation.visits]

end

namespace Checker

/-- The kinds of findings that a check of a query adds: all that are about names, and in the
outermost query the advice about stars. -/
def addsKind (isOutermost : Bool) (code : Code) : Bool :=
  !code.isAdvice || isOutermost && code = .selectStar

/-- A check has gone on from one state to another: the settings and the open scopes are what they
were, and behind the findings stand more, of the kinds that a check of a query adds. -/
structure Adds (isOutermost : Bool) (c c' : Checker) : Prop where
  settings : c'.settings = c.settings
  scopes : c'.scopes = c.scopes
  findings : ∃ added, c'.findings = c.findings ++ added ∧
    ∀ f ∈ added, addsKind isOutermost f.code = true

namespace Adds

variable {isOutermost : Bool} {c c' c'' : Checker}

theorem refl (c : Checker) : Adds isOutermost c c :=
  ⟨rfl, rfl, [], by simp⟩

theorem trans (h : Adds isOutermost c c') (h' : Adds isOutermost c' c'') :
    Adds isOutermost c c'' := by
  obtain ⟨added, hfindings, hadded⟩ := h.findings
  obtain ⟨added', hfindings', hadded'⟩ := h'.findings
  refine ⟨h'.settings.trans h.settings, h'.scopes.trans h.scopes, added ++ added', ?_, ?_⟩
  · rw [hfindings', hfindings, List.append_assoc]
  · intro f hf
    rcases List.mem_append.mp hf with hfirst | hsecond
    · exact hadded f hfirst
    · exact hadded' f hsecond

theorem of_nested (isOutermost : Bool) (h : Adds false c c') : Adds isOutermost c c' := by
  obtain ⟨added, hfindings, hadded⟩ := h.findings
  refine ⟨h.settings, h.scopes, added, hfindings, ?_⟩
  intro f hf
  have hname := hadded f hf
  simp only [addsKind, Bool.false_and, Bool.or_false] at hname
  simp [addsKind, hname]

theorem report (c : Checker) {f : Finding} (hf : addsKind isOutermost f.code = true) :
    Adds isOutermost c (c.report f) := by
  refine ⟨rfl, rfl, [f], rfl, ?_⟩
  intro g hg
  obtain rfl := List.mem_singleton.mp hg
  exact hf

/-- What comes into sight is no finding. -/
theorem of_declare {cte : CteColumns} (h : Adds isOutermost (c.declare cte) c') :
    Adds isOutermost c c' :=
  ⟨h.settings, h.scopes, h.findings⟩

theorem forget (count : Nat) (h : Adds isOutermost c c') : Adds isOutermost c (c'.forget count) :=
  ⟨h.settings, h.scopes, h.findings⟩

theorem enter (scope : Scope) (h : Adds isOutermost c c') :
    Adds isOutermost (c.enter scope) (c'.enter scope) := by
  refine ⟨h.settings, ?_, h.findings⟩
  change scope :: c'.scopes = scope :: c.scopes
  rw [h.scopes]

/-- A scope that was opened on the way is closed again. -/
theorem leave {scope : Scope} (h : Adds isOutermost (c.enter scope) c') :
    Adds isOutermost c c'.leave := by
  refine ⟨h.settings, ?_, h.findings⟩
  change c'.scopes.tail = c.scopes
  rw [h.scopes]
  rfl

theorem foldl {α : Type} {f : Checker → α → Checker} (hf : ∀ c x, Adds isOutermost c (f c x))
    (xs : List α) (c : Checker) : Adds isOutermost c (xs.foldl f c) :=
  rel_foldl refl trans hf xs c

end Adds

theorem checkTable_adds (c : Checker) (name : TableName) : Adds false c (c.checkTable name) := by
  unfold checkTable
  split
  · exact Adds.refl c
  · exact Adds.report c rfl

theorem checkTarget_adds (t : Schema.Table) (c : Checker) (column : Text) :
    Adds false c (checkTarget t c column) := by
  unfold checkTarget
  split
  · exact Adds.refl c
  · exact Adds.report c rfl

theorem checkTargets_adds (c : Checker) (meaning : Option Meaning) (columns : List Text) :
    Adds false c (c.checkTargets meaning columns) := by
  unfold checkTargets
  split
  · exact Adds.foldl (checkTarget_adds _) columns c
  · exact Adds.refl c

theorem checkQualified_adds (c : Checker) (qualifier name : Text) :
    Adds false c (c.checkQualified qualifier name) := by
  unfold checkQualified
  split
  · exact Adds.refl c
  · split
    · exact Adds.report c rfl
    · exact Adds.refl c

theorem checkUnqualified_adds (c : Checker) (name : Text) :
    Adds false c (c.checkUnqualified name) := by
  unfold checkUnqualified
  split
  · exact Adds.refl c
  · exact Adds.report c rfl
  · exact Adds.report c rfl

theorem checkColumn_adds (aliases : List Text) (c : Checker) (column : Column) :
    Adds false c (checkColumn aliases c column) := by
  unfold checkColumn
  split
  · exact checkQualified_adds c _ _
  · split
    · exact Adds.refl c
    · exact checkUnqualified_adds c _

theorem checkColumns_adds (aliases : List Text) (c : Checker) (e : Expression) :
    Adds false c (checkColumns aliases c e) :=
  Adds.foldl (checkColumn_adds aliases) e.columns c

/-- The end of a `SELECT` closes its scope. -/
theorem endSelect_adds {isOutermost : Bool} {c c' : Checker} {scope : Scope}
    (h : Adds isOutermost (c.enter scope) c') (s : Select) :
    Adds isOutermost c (endSelect isOutermost c' s) := by
  unfold endSelect
  dsimp only
  split
  · rename_i hadvised
    simp only [Bool.and_eq_true] at hadvised
    apply h.leave.trans
    apply Adds.report
    rw [hadvised.1.1.1.1]
    rfl
  · exact h.leave

mutual

theorem checkQuery_adds (isOutermost : Bool) : ∀ (q : Query) (c : Checker),
    Adds isOutermost c (checkQuery isOutermost c q)
  | .mk ctes selects order, c => by
      have hctes := (checkCtes_adds ctes c).of_nested isOutermost
      match selects with
      | [s] =>
          have hbegin := beginSelect_adds s (checkCtes c ctes)
          have horder := hbegin.trans (checkAll_adds (aliasesOf s.items) order _)
          exact (hctes.trans (endSelect_adds (horder.of_nested isOutermost) s)).forget _
      | [] => exact (hctes.trans ((checkNestedAll_adds order _).of_nested isOutermost)).forget _
      | first :: second :: more =>
          have hselects := checkSelects_adds isOutermost (first :: second :: more)
            (checkCtes c ctes)
          have hquery := (hctes.trans hselects).trans
            ((checkNestedAll_adds order _).of_nested isOutermost)
          exact hquery.forget _

theorem checkCtes_adds : ∀ (ctes : List Cte) (c : Checker), Adds false c (checkCtes c ctes)
  | [], c => Adds.refl c
  | .mk name columns query :: rest, c => by
      have hquery := checkQuery_adds false query
        (c.declare ⟨name, if columns.isEmpty then none else some columns⟩)
      have hforget := hquery.of_declare.forget c.names.ctes.length
      exact hforget.trans (checkCtes_adds rest _).of_declare

theorem checkSelects_adds (isOutermost : Bool) : ∀ (selects : List Select) (c : Checker),
    Adds isOutermost c (checkSelects isOutermost c selects)
  | [], c => Adds.refl c
  | s :: rest, c => by
      have hselect := endSelect_adds ((beginSelect_adds s c).of_nested isOutermost) s
      exact hselect.trans (checkSelects_adds isOutermost rest _)

/-- What a `SELECT` begins with is the scope of its `FROM` list. -/
theorem beginSelect_adds : ∀ (s : Select) (c : Checker),
    Adds false (c.enter (scopeOfSources c.names s.sources)) (beginSelect c s)
  | .mk items sources selection groups having, c => by
      have hsources := (checkSources_adds sources c).enter (scopeOfSources c.names sources)
      have hjoined := hsources.trans (checkJoined_adds sources _)
      have hitems := hjoined.trans (checkItems_adds items _)
      have hselection := hitems.trans (checkOption_adds selection _)
      have hgroups := hselection.trans (checkAll_adds [] groups _)
      exact hgroups.trans (checkOption_adds having _)

theorem checkSources_adds : ∀ (sources : List Source) (c : Checker),
    Adds false c (checkSources c sources)
  | [], c => Adds.refl c
  | source :: rest, c => (checkSource_adds source c).trans (checkSources_adds rest _)

theorem checkSource_adds : ∀ (source : Source) (c : Checker), Adds false c (checkSource c source)
  | .mk relation joins, c => (checkRelation_adds relation c).trans (checkJoins_adds joins _)

theorem checkJoins_adds : ∀ (joins : List Join) (c : Checker), Adds false c (checkJoins c joins)
  | [], c => Adds.refl c
  | .mk relation _ :: rest, c => (checkRelation_adds relation c).trans (checkJoins_adds rest _)

theorem checkRelation_adds : ∀ (relation : Relation) (c : Checker),
    Adds false c (checkRelation c relation)
  | .table name _, c => checkTable_adds c name
  | .derived query _, c => checkQuery_adds false query c
  | .nested source, c => checkSource_adds source c
  | .other _, c => Adds.refl c

theorem checkJoined_adds : ∀ (sources : List Source) (c : Checker),
    Adds false c (checkJoined c sources)
  | [], c => Adds.refl c
  | source :: rest, c => (checkConditions_adds source c).trans (checkJoined_adds rest _)

theorem checkConditions_adds : ∀ (source : Source) (c : Checker),
    Adds false c (checkConditions c source)
  | .mk relation joins, c => (checkGroup_adds relation c).trans (checkJoinConditions_adds joins _)

theorem checkJoinConditions_adds : ∀ (joins : List Join) (c : Checker),
    Adds false c (checkJoinConditions c joins)
  | [], c => Adds.refl c
  | .mk relation on :: rest, c => by
      have hcondition := (checkGroup_adds relation c).trans (checkOption_adds on _)
      exact hcondition.trans (checkJoinConditions_adds rest _)

theorem checkGroup_adds : ∀ (relation : Relation) (c : Checker),
    Adds false c (checkGroup c relation)
  | .table _ _, c => Adds.refl c
  | .derived _ _, c => Adds.refl c
  | .nested source, c => checkConditions_adds source c
  | .other _, c => Adds.refl c

theorem checkItems_adds : ∀ (items : List Item) (c : Checker), Adds false c (checkItems c items)
  | [], c => Adds.refl c
  | .value e _ :: rest, c => by
      have hvalue := (checkColumns_adds [] c e).trans (checkNested_adds e _)
      exact hvalue.trans (checkItems_adds rest _)
  | .star :: rest, c => checkItems_adds rest c
  | .starOf _ :: rest, c => checkItems_adds rest c

theorem checkOption_adds : ∀ (e : Option Expression) (c : Checker), Adds false c (checkOption c e)
  | none, c => Adds.refl c
  | some e, c => (checkColumns_adds [] c e).trans (checkNested_adds e _)

theorem checkAll_adds (aliases : List Text) : ∀ (es : List Expression) (c : Checker),
    Adds false c (checkAll aliases c es)
  | [], c => Adds.refl c
  | e :: rest, c => by
      have hfirst := (checkColumns_adds aliases c e).trans (checkNested_adds e _)
      exact hfirst.trans (checkAll_adds aliases rest _)

theorem checkNested_adds : ∀ (e : Expression) (c : Checker), Adds false c (checkNested c e)
  | .column _, c => Adds.refl c
  | .subquery query, c => checkQuery_adds false query c
  | .all parts, c => checkNestedAll_adds parts c
  | .literal, c => Adds.refl c

theorem checkNestedAll_adds : ∀ (es : List Expression) (c : Checker),
    Adds false c (checkNestedAll c es)
  | [], c => Adds.refl c
  | e :: rest, c => (checkNested_adds e c).trans (checkNestedAll_adds rest _)

end

/-- How many findings of a kind there are. -/
def count (c : Checker) (code : Code) : Nat :=
  c.findings.countP (·.code = code)

theorem count_report (c : Checker) (f : Finding) (code : Code) :
    (c.report f).count code = c.count code + if f.code = code then 1 else 0 := by
  simp [count, report, List.countP_append, List.countP_singleton]

/-- Findings of a kind that is not added are as many as before. -/
theorem Adds.count_eq {isOutermost : Bool} {c c' : Checker} (h : Adds isOutermost c c')
    {code : Code} (hcode : addsKind isOutermost code = false) : c'.count code = c.count code := by
  obtain ⟨added, hfindings, hadded⟩ := h.findings
  have hnone : added.countP (·.code = code) = 0 := by
    rw [List.countP_eq_zero]
    intro f hf hsame
    have hkind := hadded f hf
    rw [of_decide_eq_true hsame, hcode] at hkind
    contradiction
  rw [count, hfindings, List.countP_append, hnone, Nat.add_zero]
  rfl

section

variable {s : Settings} {schema : Schema} {visible : List Text} {c : Checker}

theorem deservesAdvice_iff (h : c.Sees s schema visible) (select : Select) :
    (!select.sources.isEmpty && select.hasStar && sourcesResolve c.names select.sources) = true ↔
      DeservesAdvice schema visible select := by
  have hresolve : sourcesResolve c.names select.sources = true ↔
      ∀ name ∈ namedTables select.sources, ¬ Unresolved schema ⟨visible, name⟩ := by
    rw [sourcesResolve_iff]
    apply forall₂_congr
    intro name _
    rw [← meaning?_eq_none_iff h name]
  simp only [Bool.and_eq_true, Bool.not_eq_true', List.isEmpty_eq_false_iff, Select.hasStar,
    List.any_eq_true, hresolve, DeservesAdvice, and_assoc]
  exact and_left_comm

/-- The end of an outermost `SELECT` adds an advice if the `SELECT` deserves it. -/
theorem count_endSelect (h : c.Sees s schema visible) (select : Select) :
    (endSelect true c select).count .selectStar =
      c.count .selectStar +
        if s.selectStar = true ∧ DeservesAdvice schema visible select then 1 else 0 := by
  have hleave : c.leave.Sees s schema visible := h.quiet (leave_quiet c)
  have hcount : c.leave.count .selectStar = c.count .selectStar := rfl
  have hadvised : (true && c.leave.settings.selectStar && !select.sources.isEmpty &&
      select.hasStar && sourcesResolve c.leave.names select.sources) = true ↔
      s.selectStar = true ∧ DeservesAdvice schema visible select := by
    rw [← deservesAdvice_iff hleave, hleave.settings]
    simp only [Bool.true_and, Bool.and_eq_true, and_assoc]
  unfold endSelect
  simp only [hadvised]
  split
  · rw [adviseStar, count_report, hcount]
    rfl
  · rw [hcount, Nat.add_zero]

theorem count_beginSelect (select : Select) (c : Checker) :
    (beginSelect c select).count .selectStar = c.count .selectStar :=
  (beginSelect_adds select c).count_eq rfl

theorem count_checkSelects (selects : List Select) (h : c.Sees s schema visible) :
    (checkSelects true c selects).count .selectStar =
      c.count .selectStar +
        selects.countP fun x => s.selectStar = true ∧ DeservesAdvice schema visible x := by
  induction selects generalizing c with
  | nil => simp [checkSelects]
  | cons first rest ih =>
      have hbegin := beginSelect_reports first h
      have hend := hbegin.quiet (endSelect_quiet true _ first)
      rw [checkSelects, ih hend.sees, count_endSelect hbegin.sees, count_beginSelect,
        List.countP_cons, Nat.add_assoc, Nat.add_comm (List.countP _ rest)]
      simp only [decide_eq_true_eq]

/-- The advices about stars in an outermost query are those that its `SELECT`s deserve. -/
theorem count_checkQuery (ctes : List Cte) (selects : List Select) (order : List Expression)
    (h : c.Sees s schema visible) :
    (checkQuery true c (.mk ctes selects order)).count .selectStar =
      c.count .selectStar + selects.countP fun x =>
        s.selectStar = true ∧ DeservesAdvice schema (visibleBehind visible ctes) x := by
  have hctes := (checkCtes_reports ctes h).sees
  have hcount : (checkCtes c ctes).count .selectStar = c.count .selectStar :=
    (checkCtes_adds ctes c).count_eq rfl
  have hselects := count_checkSelects selects hctes
  rw [hcount] at hselects
  match selects with
  | [select] =>
      have hbegin := beginSelect_reports select hctes
      have horder := checkAll_reports (aliasesOf select.items) order hbegin.sees
      have hsame : (checkAll (aliasesOf select.items) (beginSelect (checkCtes c ctes) select)
          order).count .selectStar = (beginSelect (checkCtes c ctes) select).count .selectStar :=
        (checkAll_adds (aliasesOf select.items) order _).count_eq rfl
      rw [← hselects]
      change (endSelect true _ select).count .selectStar =
        (endSelect true _ select).count .selectStar
      rw [count_endSelect horder.sees, count_endSelect hbegin.sees, hsame]
  | [] =>
      rw [← hselects]
      exact (checkNestedAll_adds order _).count_eq rfl
  | first :: second :: more =>
      rw [← hselects]
      exact (checkNestedAll_adds order _).count_eq rfl

end

theorem checkInsert_adds (c : Checker) (t : Text) (table : TableName) (columns : List Text)
    (source : Option Query) : Adds false c (c.checkStatement t (.insert table columns source)) := by
  have htargets := (checkTable_adds c table).trans
    (checkTargets_adds _ (c.names.meaning? table) columns)
  cases source with
  | none => exact htargets
  | some query => exact htargets.trans (checkQuery_adds false query _)

/-- The check of an update comes to the names in it, unless its text shows a `FROM` list of its own,
and to the advice at its end. -/
theorem exists_checkedNames (c : Checker) (table : Option TableName) (alias? : Option Text)
    (assigned : List Text) (values : List Expression) (selection : Option Expression) :
    ∃ named, Adds false c named ∧ ∀ t,
      c.checkStatement t (.update table alias? assigned values selection) =
        let checked := if updatesFrom t then c else named
        if selection.isNone && c.settings.missingWhere then checked.adviseUpdate table
        else checked := by
  refine ⟨_, ?_, fun t => rfl⟩
  have htable := Adds.foldl (fun c r => checkRelation_adds r c)
    (table.toList.map fun name => Relation.table name alias?) c
  have htargets (meaning : Option Meaning) :=
    htable.trans (checkTargets_adds _ meaning assigned)
  have hvalues (meaning : Option Meaning) (scope : Scope) :=
    ((htargets meaning).enter scope).trans (checkAll_adds [] values _)
  exact ((hvalues _ _).trans (checkOption_adds selection _)).leave

/-- The check of an update, at the end of which it may be advised against. -/
theorem exists_checkUpdate (c : Checker) (t : Text) (table : Option TableName)
    (alias? : Option Text) (assigned : List Text) (values : List Expression)
    (selection : Option Expression) :
    ∃ checked f, Adds false c checked ∧ f.code = .updateWithoutWhere ∧
      c.checkStatement t (.update table alias? assigned values selection) =
        if selection.isNone && c.settings.missingWhere then checked.report f else checked := by
  obtain ⟨named, hnamed, hcheck⟩ :=
    exists_checkedNames c table alias? assigned values selection
  refine ⟨if updatesFrom t then c else named, _, ?_, rfl, hcheck t⟩
  split
  · exact Adds.refl c
  · exact hnamed

/-- The check of a deletion, at the end of which it may be advised against. -/
theorem exists_checkDelete (c : Checker) (t : Text) (sources : List Source)
    (selection : Option Expression) :
    ∃ checked f, Adds false c checked ∧ f.code = .deleteWithoutWhere ∧
      c.checkStatement t (.delete sources selection) =
        if selection.isNone && c.settings.missingWhere then checked.report f else checked := by
  refine ⟨_, _, ?_, rfl, rfl⟩
  have hsources := (checkSources_adds sources c).enter (scopeOfSources c.names sources)
  have hjoined := hsources.trans (checkJoined_adds sources _)
  exact (hjoined.trans (checkOption_adds selection _)).leave

/-- The advices that a check gives which may report one at its end. -/
theorem count_advised {c checked c' : Checker} {f : Finding} {advised : Bool}
    (hadds : Adds false c checked) (hcheck : c' = if advised then checked.report f else checked)
    {code : Code} (hcode : code.isAdvice = true) :
    c'.count code = c.count code + if advised = true ∧ f.code = code then 1 else 0 := by
  have hchecked : checked.count code = c.count code := by
    apply hadds.count_eq
    simp [addsKind, hcode]
  subst hcheck
  cases advised with
  | true => simp [count_report, hchecked]
  | false => simp [hchecked]

end Checker

open Checker in
/-- The advices about a statement. There is one about a star for every `SELECT` of a statement that
is itself a query, as often as these deserve one, and so none for a `SELECT` in a common table
expression, in a derived table, in a condition or in the query of an `INSERT`. There is one about a
missing condition for an update or a deletion that has none, and for no other statement. -/
theorem count_advices (s : Settings) (schema : Schema) (statement : Statement) (t : Text) :
    let count code := (statementFindings s schema statement t).countP (·.code = code)
    count .selectStar = (statement.outermostSelects.countP fun x =>
        s.selectStar = true ∧ DeservesAdvice schema statement.outermostCtes x) ∧
      count .updateWithoutWhere = (if s.missingWhere && statement.updatesAll then 1 else 0) ∧
      count .deleteWithoutWhere = (if s.missingWhere && statement.deletesAll then 1 else 0) := by
  intro count
  let c : Checker := ⟨s, ⟨schema, []⟩, [], []⟩
  have hsees : c.Sees s schema [] := ⟨rfl, rfl, rfl⟩
  have hnone {c' : Checker} {isOutermost : Bool} (h : Adds isOutermost c c') {code : Code}
      (hcode : addsKind isOutermost code = false) : c'.count code = 0 := h.count_eq hcode
  have hcount (code : Code) : count code = (c.checkStatement t statement).count code := rfl
  rw [hcount, hcount, hcount]
  cases statement with
  | select query =>
      cases query with
      | mk ctes selects order =>
          have hquery : Adds true c (c.checkStatement t (.select (.mk ctes selects order))) :=
            checkQuery_adds true (.mk ctes selects order) c
          have hstar := count_checkQuery ctes selects order hsees
          refine ⟨hstar.trans (Nat.zero_add _), ?_, ?_⟩
          · simpa [Statement.updatesAll] using hnone hquery rfl
          · simpa [Statement.deletesAll] using hnone hquery rfl
  | insert table columns source =>
      have hinsert := checkInsert_adds c t table columns source
      refine ⟨hnone hinsert rfl, ?_, ?_⟩
      · simpa [Statement.updatesAll] using hnone hinsert rfl
      · simpa [Statement.deletesAll] using hnone hinsert rfl
  | update table alias? assigned values selection =>
      obtain ⟨checked, f, hadds, hf, hcheck⟩ :=
        exists_checkUpdate c t table alias? assigned values selection
      have hupdates : (Statement.update table alias? assigned values selection).updatesAll =
          selection.isNone := by
        cases selection <;> rfl
      refine ⟨?_, ?_, ?_⟩
      · rw [count_advised hadds hcheck rfl, hf, if_neg (by simp)]
        rfl
      · rw [count_advised hadds hcheck rfl, hf, hupdates, Bool.and_comm]
        simp [c, Checker.count]
      · rw [count_advised hadds hcheck rfl, hf, if_neg (by simp)]
        simp [c, Checker.count, Statement.deletesAll]
  | delete sources selection =>
      obtain ⟨checked, f, hadds, hf, hcheck⟩ := exists_checkDelete c t sources selection
      have hdeletes : (Statement.delete sources selection).deletesAll = selection.isNone := by
        cases selection <;> rfl
      refine ⟨?_, ?_, ?_⟩
      · rw [count_advised hadds hcheck rfl, hf, if_neg (by simp)]
        rfl
      · rw [count_advised hadds hcheck rfl, hf, if_neg (by simp)]
        simp [c, Checker.count, Statement.updatesAll]
      · rw [count_advised hadds hcheck rfl, hf, hdeletes, Bool.and_comm]
        simp [c, Checker.count]
  | other =>
      have hother : Adds false c (c.checkStatement t .other) := Adds.refl c
      refine ⟨hnone hother rfl, ?_, ?_⟩
      · simpa [Statement.updatesAll] using hnone hother rfl
      · simpa [Statement.deletesAll] using hnone hother rfl

end Validation

end SqlInsight
