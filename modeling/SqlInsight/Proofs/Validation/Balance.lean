/-
The balance of a check. Every operation of a check gives back the open scopes and the common table
expressions in sight as it has found them, and adds its findings behind the earlier ones, on which
they do not depend. An operation that binds what a `FROM` list names works on the check in the same
way and adds what it binds behind the scope that it is given.
-/
import SqlInsight.Proofs.Validation.Advice
import SqlInsight.Proofs.Validation.Filters
import SqlInsight.Proofs.Validation.Sight

namespace SqlInsight.Validation

open Outline

/-- A check at work on a `FROM` list: the scope that it has bound so far, and whether no table that
is named directly was missing. -/
structure Binder where
  checker : Checker
  scope : Scope
  resolved : Bool

namespace Binder

/-- Check that a table is not missing, and bind it. -/
def table (b : Binder) (name : TableName) (alias? : Option Text) : Binder :=
  let meaning? := b.checker.names.meaning? name
  { checker := b.checker.checkTable name
    scope := b.scope ++ [⟨alias?.getD name.name, meaning?.getD .unknown⟩]
    resolved := b.resolved && meaning?.isSome }

mutual

/-- Check a relation, and bind it. -/
def relation (b : Binder) : Relation → Binder
  | .table name alias? => b.table name alias?
  | .derived query alias? =>
      let checker := Checker.checkQuery false b.checker query
      let meaning := derivedMeaning checker.names query alias?
      { b with checker, scope := b.scope ++ [⟨alias?.getD [], meaning⟩] }
  | .nested source => b.source source
  | .other alias? => { b with scope := b.scope ++ [⟨alias?.getD [], .unknown⟩] }

/-- Check an item of a `FROM` list, and bind it. -/
def source (b : Binder) : Source → Binder
  | .mk first joins => (b.relation first).joins joins

/-- Check the relations of some joins, and bind them. -/
def joins (b : Binder) : List Join → Binder
  | [] => b
  | .mk joined _ :: rest => (b.relation joined).joins rest

end

mutual

/-- What is bound behind the scope is what the relation binds in the names in sight before. -/
theorem relation_eq : ∀ (r : Relation) (b : Binder),
    b.relation r = ⟨Checker.checkRelation b.checker r,
      b.scope ++ scopeOfRelation b.checker.names r,
      b.resolved && relationResolves b.checker.names r⟩
  | .table _ _, _ => rfl
  | .derived query alias?, b => by
      simp only [relation, Checker.checkRelation, scopeOfRelation, relationResolves, Bool.and_true,
        Checker.names_checkQuery]
  | .nested source, b => by
      simp only [relation, Checker.checkRelation, scopeOfRelation, relationResolves]
      exact source_eq source b
  | .other _, b => by
      simp only [relation, Checker.checkRelation, scopeOfRelation, relationResolves, Bool.and_true]

theorem source_eq : ∀ (s : Source) (b : Binder),
    b.source s = ⟨Checker.checkSource b.checker s, b.scope ++ scopeOfSource b.checker.names s,
      b.resolved && sourceResolves b.checker.names s⟩
  | .mk first rest, b => by
      simp only [source, relation_eq first b, joins_eq rest, Checker.checkSource, scopeOfSource,
        sourceResolves, Checker.names_checkRelation, List.append_assoc, Bool.and_assoc]

theorem joins_eq : ∀ (js : List Join) (b : Binder),
    b.joins js = ⟨Checker.checkJoins b.checker js, b.scope ++ scopeOfJoins b.checker.names js,
      b.resolved && joinsResolve b.checker.names js⟩
  | [], b => by
      simp only [joins, Checker.checkJoins, scopeOfJoins, joinsResolve, List.append_nil,
        Bool.and_true]
  | .mk joined _ :: rest, b => by
      simp only [joins, relation_eq joined b, joins_eq rest, Checker.checkJoins, scopeOfJoins,
        joinsResolve, Checker.names_checkRelation, List.append_assoc, Bool.and_assoc]

end

/-- A whole `FROM` list is bound item by item. -/
theorem foldl_source (sources : List Source) (b : Binder) :
    sources.foldl source b = ⟨Checker.checkSources b.checker sources,
      b.scope ++ scopeOfSources b.checker.names sources,
      b.resolved && sourcesResolve b.checker.names sources⟩ := by
  induction sources generalizing b with
  | nil =>
      simp only [List.foldl_nil, Checker.checkSources, scopeOfSources, sourcesResolve,
        List.append_nil, Bool.and_true]
  | cons s rest ih =>
      simp only [List.foldl_cons, ih, source_eq, Checker.checkSources, scopeOfSources,
        sourcesResolve, Checker.names_checkSource, List.append_assoc, Bool.and_assoc]

end Binder

namespace Checker

/-- Check a `SELECT`: bind its `FROM` list, open the scope of it for the names in the `SELECT` and
in what it is ordered by, close it, and advise against a star. -/
def checkSelect (isOutermost : Bool) (c : Checker) (select : Select) (order : List Expression) :
    Checker :=
  let b := select.sources.foldl Binder.source ⟨c, [], true⟩
  let c := checkJoined (b.checker.enter b.scope) select.sources
  let c := checkOption (checkItems c select.items) select.selection
  let c := checkOption (checkAll [] c select.groups) select.having
  let c := (checkAll (aliasesOf select.items) c order).leave
  if isOutermost && b.resolved && c.settings.selectStar && !select.sources.isEmpty
      && select.hasStar then
    c.adviseStar
  else c

theorem beginSelect_eq (c : Checker) (s : Select) :
    beginSelect c s = checkOption (checkAll [] (checkOption (checkItems (checkJoined
      ((checkSources c s.sources).enter (scopeOfSources c.names s.sources)) s.sources) s.items)
        s.selection) s.groups) s.having := by
  cases s
  simp only [beginSelect, Select.sources, Select.items, Select.selection, Select.groups,
    Select.having]

/-- Whether the tables of the `FROM` list are known is the same when the scope is closed as when
they are bound, since the same names are in sight. -/
theorem checkSelect_eq (isOutermost : Bool) (c : Checker) (s : Select) (order : List Expression) :
    checkSelect isOutermost c s order =
      endSelect isOutermost (checkAll (aliasesOf s.items) (beginSelect c s) order) s := by
  have hnames : (checkAll (aliasesOf s.items) (beginSelect c s) order).leave.names = c.names := by
    rw [(leave_quiet _).names, names_checkAll, names_beginSelect]
  simp only [checkSelect, endSelect, hnames, Binder.foldl_source, List.nil_append, Bool.true_and,
    ← beginSelect_eq]
  cases sourcesResolve c.names s.sources <;>
    simp only [Bool.and_true, Bool.and_false, Bool.false_and]

/-- Take the common table expression that came into sight last out of it. -/
def undeclare (c : Checker) : Checker :=
  { c with names := { c.names with ctes := c.names.ctes.tail } }

/-- Check the query of a common table expression, which sees itself with the columns that it lists,
and bring the expression into sight in place of that. -/
def bringIn (c : Checker) : Cte → Checker
  | .mk name columns query =>
      let listed := if columns.isEmpty then none else some columns
      let c := (checkQuery false (c.declare ⟨name, listed⟩) query).undeclare
      c.declare ⟨name, listed.or (queryColumns? c.names query)⟩

/-- Behind the query of a common table expression nothing but that has come into sight. -/
theorem forget_checkQuery (c : Checker) (cte : CteColumns) (q : Query) :
    (checkQuery false (c.declare cte) q).forget c.names.ctes.length =
      (checkQuery false (c.declare cte) q).undeclare := by
  have hctes : (checkQuery false (c.declare cte) q).names.ctes = cte :: c.names.ctes := by
    rw [names_checkQuery]
    rfl
  have hlength : (cte :: c.names.ctes).length - c.names.ctes.length = 1 := by
    rw [List.length_cons, Nat.add_sub_cancel_left]
  simp only [forget, undeclare, hctes, hlength, List.drop_one]

theorem checkCtes_eq_foldl (ctes : List Cte) (c : Checker) :
    checkCtes c ctes = ctes.foldl bringIn c := by
  induction ctes generalizing c with
  | nil => rfl
  | cons cte rest ih =>
      cases cte
      simp only [checkCtes, forget_checkQuery, List.foldl_cons, bringIn, ih]

theorem checkSelects_eq_foldl (isOutermost : Bool) (selects : List Select) (c : Checker) :
    checkSelects isOutermost c selects =
      selects.foldl (fun c s => checkSelect isOutermost c s []) c := by
  induction selects generalizing c with
  | nil => rfl
  | cons s rest ih => simp only [checkSelects, List.foldl_cons, checkSelect_eq, checkAll, ih]

/-- The check of a query goes through its common table expressions and its `SELECT`s one by one. The
columns of an order belong to the scope of the only `SELECT`; behind several only the queries in the
order are checked. -/
theorem checkQuery_eq (isOutermost : Bool) (c : Checker) (ctes : List Cte) (selects : List Select)
    (order : List Expression) :
    checkQuery isOutermost c (.mk ctes selects order) =
      (if selects.length = 1 then
        selects.foldl (fun c s => checkSelect isOutermost c s order) (ctes.foldl bringIn c)
      else
        checkNestedAll
          (selects.foldl (fun c s => checkSelect isOutermost c s []) (ctes.foldl bringIn c))
          order).forget c.names.ctes.length := by
  cases selects with
  | nil =>
      simp only [checkQuery, checkCtes_eq_foldl, checkSelects_eq_foldl]
      rfl
  | cons first rest =>
      cases rest with
      | nil =>
          simp only [checkQuery, checkCtes_eq_foldl, checkSelect_eq]
          rfl
      | cons second more =>
          simp only [checkQuery, checkCtes_eq_foldl, checkSelects_eq_foldl]
          rw [if_neg (by simp)]

/-- A check that has gone on with the same settings, the same names in sight and the same scopes
open. -/
structure Balanced (c c' : Checker) : Prop where
  settings : c'.settings = c.settings
  names : c'.names = c.names
  scopes : c'.scopes = c.scopes

namespace Balanced

variable {c c' c'' : Checker}

theorem refl (c : Checker) : Balanced c c := ⟨rfl, rfl, rfl⟩

theorem trans (h : Balanced c c') (h' : Balanced c' c'') : Balanced c c'' :=
  ⟨h'.settings.trans h.settings, h'.names.trans h.names, h'.scopes.trans h.scopes⟩

theorem of_adds {isOutermost : Bool} (h : Adds isOutermost c c') (hnames : c'.names = c.names) :
    Balanced c c' :=
  ⟨h.settings, hnames, h.scopes⟩

theorem report (c : Checker) (f : Finding) : Balanced c (c.report f) := ⟨rfl, rfl, rfl⟩

/-- A scope that was opened is closed again. -/
theorem leave {scope : Scope} (h : Balanced (c.enter scope) c') : Balanced c c'.leave :=
  ⟨h.settings, h.names, congrArg List.tail h.scopes⟩

theorem foldl {α : Type} {f : Checker → α → Checker} (hf : ∀ c x, Balanced c (f c x))
    (xs : List α) (c : Checker) : Balanced c (xs.foldl f c) :=
  rel_foldl refl trans hf xs c

/-- An advice at the end changes nothing but the findings. -/
theorem advise (h : Balanced c c') (p : Prop) [Decidable p] (f : Finding) :
    Balanced c (if p then c'.report f else c') := by
  split
  · exact h.trans (report c' f)
  · exact h

end Balanced

section

variable (c : Checker)

theorem checkQuery_balanced (isOutermost : Bool) (q : Query) :
    Balanced c (checkQuery isOutermost c q) :=
  .of_adds (checkQuery_adds isOutermost q c) (names_checkQuery isOutermost q c)

theorem checkColumns_balanced (aliases : List Text) (e : Expression) :
    Balanced c (checkColumns aliases c e) :=
  .of_adds (checkColumns_adds aliases c e) (checkColumns_quiet aliases c e).names

theorem checkNested_balanced (e : Expression) : Balanced c (checkNested c e) :=
  .of_adds (checkNested_adds e c) (names_checkNested e c)

theorem checkOption_balanced (e : Option Expression) : Balanced c (checkOption c e) :=
  .of_adds (checkOption_adds e c) (names_checkOption e c)

theorem checkAll_balanced (aliases : List Text) (es : List Expression) :
    Balanced c (checkAll aliases c es) :=
  .of_adds (checkAll_adds aliases es c) (names_checkAll aliases es c)

theorem checkTargets_balanced (meaning : Option Meaning) (columns : List Text) :
    Balanced c (c.checkTargets meaning columns) :=
  .of_adds (checkTargets_adds c meaning columns) (checkTargets_quiet c meaning columns).names

theorem checkTable_balanced (name : TableName) : Balanced c (c.checkTable name) :=
  .of_adds (checkTable_adds c name) (names_checkTable c name)

theorem checkRelation_balanced (r : Relation) : Balanced c (checkRelation c r) :=
  .of_adds (checkRelation_adds r c) (names_checkRelation r c)

theorem checkSource_balanced (s : Source) : Balanced c (checkSource c s) :=
  .of_adds (checkSource_adds s c) (names_checkSource s c)

theorem checkSources_balanced (sources : List Source) : Balanced c (checkSources c sources) :=
  .of_adds (checkSources_adds sources c) (names_checkSources sources c)

theorem checkJoined_balanced (sources : List Source) : Balanced c (checkJoined c sources) :=
  .of_adds (checkJoined_adds sources c) (names_checkJoined sources c)

theorem checkConditions_balanced (s : Source) : Balanced c (checkConditions c s) :=
  .of_adds (checkConditions_adds s c) (names_checkConditions s c)

theorem checkSelect_balanced (isOutermost : Bool) (s : Select) (order : List Expression) :
    Balanced c (checkSelect isOutermost c s order) := by
  have hbegin := (beginSelect_adds s c).trans (checkAll_adds (aliasesOf s.items) order _)
  rw [checkSelect_eq]
  refine .of_adds (endSelect_adds (hbegin.of_nested isOutermost) s) ?_
  rw [(endSelect_quiet _ _ _).names, names_checkAll, names_beginSelect]

theorem checkStatement_balanced (t : Text) (st : Statement) :
    Balanced c (c.checkStatement t st) := by
  cases st with
  | select query => exact checkQuery_balanced c true query
  | insert table columns source =>
      have htargets := (checkTable_balanced c table).trans
        (checkTargets_balanced _ (c.names.meaning? table) columns)
      cases source with
      | none => exact htargets
      | some query => exact htargets.trans (checkQuery_balanced _ false query)
  | update table alias? assigned values selection =>
      have htargets (meaning : Option Meaning) (target : List Relation) :=
        (Balanced.foldl checkRelation_balanced target c).trans
          (checkTargets_balanced _ meaning assigned)
      have hvalues (scope : Scope) (c : Checker) : Balanced c
          (checkOption (checkAll [] (c.enter scope) values) selection).leave :=
        ((checkAll_balanced _ [] values).trans (checkOption_balanced _ selection)).leave
      simp only [checkStatement]
      refine Balanced.advise ?_ _ _
      split
      · exact .refl c
      · exact (htargets _ _).trans (hvalues _ _)
  | delete sources selection =>
      have hselection (scope : Scope) (c : Checker) : Balanced c
          (checkOption (checkJoined (c.enter scope) sources) selection).leave :=
        ((checkJoined_balanced _ sources).trans (checkOption_balanced _ selection)).leave
      exact ((checkSources_balanced c sources).trans (hselection _ _)).advise _ _
  | other => exact .refl c

end

end Checker

/-- The second findings are the first ones behind earlier ones. -/
def Behind (earlier fs fs' : List Finding) : Prop :=
  fs' = earlier ++ fs

theorem behind_lasting (s : Settings) (earlier : List Finding) :
    Checker.Lasting s s (Behind earlier) := by
  intro fs fs' f f' h _ _ hequal
  obtain rfl := hequal rfl
  rw [Behind, h, List.append_assoc]

/-- What has the same effect on two checks that agree but for their findings, and gives back what it
has found, only adds findings, and the same ones to any check with the same names in sight and the
same scopes open. -/
theorem eq_append_findings {f : Checker → Checker} (hbalanced : ∀ c, Checker.Balanced c (f c))
    (htwin : ∀ {s : Settings} {F : List Finding → List Finding → Prop} {c c' : Checker},
      Checker.Lasting s s F → Checker.Twin s s F c c' → Checker.Twin s s F (f c) (f c'))
    (c : Checker) :
    f c = { c with findings := c.findings ++ (f { c with findings := [] }).findings } := by
  have hstart : Checker.Twin c.settings c.settings (Behind c.findings)
      { c with findings := [] } c := ⟨rfl, rfl, rfl, rfl, (List.append_nil c.findings).symm⟩
  have hfindings : (f c).findings = c.findings ++ (f { c with findings := [] }).findings :=
    (htwin (behind_lasting c.settings c.findings) hstart).findings
  obtain ⟨hsettings, hnames, hscopes⟩ := hbalanced c
  rw [← hfindings, ← hsettings, ← hnames, ← hscopes]

/-- An operation of a check. -/
inductive Operation where
  | statement (t : Text) (st : Statement)
  | query (isOutermost : Bool) (q : Query)
  | select (isOutermost : Bool) (s : Select) (order : List Expression)
  | conditions (s : Source)
  | expression (aliases : List Text) (e : Expression)
  | table (name : TableName)
  | target (t : Schema.Table) (column : Text)
  | qualified (qualifier name : Text)
  | unqualified (name : Text)

/-- An operation of a check that binds names of a `FROM` list. -/
inductive BindOperation where
  | table (name : TableName) (alias? : Option Text)
  | relation (r : Relation)
  | source (s : Source)

open Checker

namespace Operation

def run (c : Checker) : Operation → Checker
  | statement t st => c.checkStatement t st
  | query isOutermost q => checkQuery isOutermost c q
  | select isOutermost s order => checkSelect isOutermost c s order
  | conditions s => checkConditions c s
  | expression aliases e => checkNested (checkColumns aliases c e) e
  | table name => c.checkTable name
  | target t column => checkTarget t c column
  | qualified qualifier name => c.checkQualified qualifier name
  | unqualified name => c.checkUnqualified name

/-- What an operation finds in a check that has found nothing yet. -/
def found (op : Operation) (c : Checker) : List Finding :=
  (op.run { c with findings := [] }).findings

theorem run_balanced (op : Operation) (c : Checker) : Balanced c (op.run c) := by
  cases op with
  | statement t st => exact checkStatement_balanced c t st
  | query isOutermost q => exact checkQuery_balanced c isOutermost q
  | select isOutermost s order => exact checkSelect_balanced c isOutermost s order
  | conditions s => exact checkConditions_balanced c s
  | expression aliases e =>
      exact (checkColumns_balanced c aliases e).trans (checkNested_balanced _ e)
  | table name => exact checkTable_balanced c name
  | target t column => exact checkTargets_balanced c (some (.table t)) [column]
  | qualified qualifier name =>
      exact .of_adds (checkQualified_adds c qualifier name)
        (checkQualified_quiet c qualifier name).names
  | unqualified name =>
      exact .of_adds (checkUnqualified_adds c name) (checkUnqualified_quiet c name).names

/-- Checks that agree but for their findings agree so behind every operation. -/
theorem run_twin {s : Settings} {F : List Finding → List Finding → Prop} {c c' : Checker}
    (hF : Lasting s s F) (op : Operation) (h : Twin s s F c c') :
    Twin s s F (op.run c) (op.run c') := by
  have hstep : InStep (Twin s s F) := (twin_lockstep hF).inStep
  cases op with
  | statement t st => exact hstep.checkStatement t st h
  | query isOutermost q => exact hstep.checkQuery isOutermost q h
  | select isOutermost s order =>
      simp only [run, checkSelect_eq]
      exact hstep.endSelect isOutermost s (hstep.checkAll _ order (hstep.beginSelect s h))
  | conditions s => exact hstep.checkConditions s h
  | expression aliases e => exact hstep.checkNested e (hstep.checkColumns aliases e h)
  | table name => exact h.checkTable hF name
  | target t column => exact h.checkTarget hF t column
  | qualified qualifier name => exact h.checkQualified hF qualifier name
  | unqualified name => exact h.checkUnqualified hF name

end Operation

namespace BindOperation

/-- What becomes of a check and of the scope that it is binding. -/
def run (b : Binder) : BindOperation → Binder
  | table name alias? => b.table name alias?
  | relation r => b.relation r
  | source s => b.source s

def check (c : Checker) : BindOperation → Checker
  | table name _ => c.checkTable name
  | relation r => checkRelation c r
  | source s => checkSource c s

/-- What is bound with these names in sight. -/
def bound (n : Names) : BindOperation → Scope
  | table name alias? => scopeOfRelation n (.table name alias?)
  | relation r => scopeOfRelation n r
  | source s => scopeOfSource n s

/-- Whether no table that is named directly is missing. -/
def resolves (n : Names) : BindOperation → Bool
  | table name alias? => relationResolves n (.table name alias?)
  | relation r => relationResolves n r
  | source s => sourceResolves n s

/-- What an operation finds in a check that has found nothing yet. -/
def found (op : BindOperation) (c : Checker) : List Finding :=
  (op.run ⟨{ c with findings := [] }, [], true⟩).checker.findings

theorem run_eq (op : BindOperation) (b : Binder) :
    op.run b = ⟨op.check b.checker, b.scope ++ op.bound b.checker.names,
      b.resolved && op.resolves b.checker.names⟩ := by
  cases op with
  | table name alias? => rfl
  | relation r => exact b.relation_eq r
  | source s => exact b.source_eq s

theorem check_balanced (op : BindOperation) (c : Checker) : Balanced c (op.check c) := by
  cases op with
  | table name alias? => exact checkTable_balanced c name
  | relation r => exact checkRelation_balanced c r
  | source s => exact checkSource_balanced c s

theorem check_twin {s : Settings} {F : List Finding → List Finding → Prop} {c c' : Checker}
    (hF : Lasting s s F) (op : BindOperation) (h : Twin s s F c c') :
    Twin s s F (op.check c) (op.check c') := by
  have hstep : InStep (Twin s s F) := (twin_lockstep hF).inStep
  cases op with
  | table name alias? => exact hstep.checkTable name h
  | relation r => exact hstep.checkRelation r h
  | source s => exact hstep.checkSource s h

end BindOperation

/-- A check is balanced: each operation leaves the settings, the names in sight and the open scopes
as it finds them, and adds findings behind the earlier ones, on which they do not depend. One that
binds does the same, and adds what it binds to the scope that it is given. -/
theorem operations_balanced :
    (∀ (op : Operation) (c : Checker),
      op.run c = { c with findings := c.findings ++ op.found c }) ∧
    ∀ (op : BindOperation) (b : Binder), op.run b =
      ⟨{ b.checker with findings := b.checker.findings ++ op.found b.checker },
        b.scope ++ op.bound b.checker.names, b.resolved && op.resolves b.checker.names⟩ := by
  refine ⟨fun op c => ?_, fun op b => ?_⟩
  · exact eq_append_findings op.run_balanced (fun hF => Operation.run_twin hF op) c
  · have hcheck := eq_append_findings op.check_balanced (fun hF => BindOperation.check_twin hF op)
      b.checker
    rw [BindOperation.found, op.run_eq, op.run_eq, ← hcheck]

end SqlInsight.Validation
