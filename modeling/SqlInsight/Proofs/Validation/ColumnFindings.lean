/-
What a check finds about columns. Wherever it goes, it is under the settings it began with, it has
the names in sight and the scopes open that belong to its place, and it adds for every column that
is named what is found about it there. Something of unknown columns in a `FROM` list, be it only a
table that is missing, may have any column; so it keeps an unqualified column from being missing
wherever the list is around the column, in the `SELECT` that has the list as well as in the queries
nested in it.
-/
import SqlInsight.Proofs.Validation.ColumnUses
import SqlInsight.Proofs.Validation.Resolution

namespace SqlInsight.Validation

open Outline

namespace Names

theorem length_ctes_along (comes : Names → Cte → CteColumns) (schema : Schema)
    (sighted : List Sighted) : (along comes schema sighted).ctes.length = sighted.length := by
  induction sighted with
  | nil => rfl
  | cons d outer ih => cases d <;> simp [along, ih]

theorem schema_along (comes : Names → Cte → CteColumns) (schema : Schema)
    (sighted : List Sighted) : (along comes schema sighted).schema = schema := by
  induction sighted with
  | nil => rfl
  | cons d outer ih => cases d <;> exact ih

theorem exists_along_append (schema : Schema) (more sighted : List Sighted) :
    ∃ declared, (along CteColumns.ofDeclared schema (more ++ sighted)).ctes =
      declared ++ (along CteColumns.ofDeclared schema sighted).ctes := by
  induction more with
  | nil => exact ⟨[], rfl⟩
  | cons d rest ih =>
      obtain ⟨declared, h⟩ := ih
      cases d with
      | inside cte => exact ⟨_ :: declared, congrArg _ h⟩
      | behind cte => exact ⟨_ :: declared, congrArg _ h⟩

end Names

namespace Checker

/-- What has been found about columns. -/
def columns (c : Checker) : List Finding :=
  c.findings.filter (·.code.isAboutColumn)

/-- A check under these settings, against that snapshot, stands where these common table expressions
are in sight and these `FROM` lists are around. -/
structure Stands (s : Settings) (schema : Schema) (sighted : List Sighted) (around : List Place)
    (c : Checker) : Prop where
  settings : c.settings = s
  names : c.names = Names.along CteColumns.ofDeclared schema sighted
  scopes : c.scopes = around.map (Place.scope schema)

/-- A check has gone on to a state that stands there, and has found on the way what there is to find
about some columns. -/
structure Finds (s : Settings) (schema : Schema) (sighted : List Sighted) (around : List Place)
    (uses : List ColumnUse) (c c' : Checker) : Prop where
  stands : c'.Stands s schema sighted around
  columns : c'.columns = c.columns ++ uses.flatMap (ColumnUse.findings s schema)

variable {s : Settings} {schema : Schema} {sighted : List Sighted} {around : List Place}
  {c c' : Checker}

theorem Finds.trans {sighted' : List Sighted} {around' : List Place}
    {first second : List ColumnUse} {c'' : Checker}
    (h : Finds s schema sighted around first c c')
    (h' : Finds s schema sighted' around' second c' c'') :
    Finds s schema sighted' around' (first ++ second) c c'' := by
  refine ⟨h'.stands, ?_⟩
  rw [h'.columns, h.columns, List.flatMap_append, List.append_assoc]

theorem Finds.refl (h : c.Stands s schema sighted around) :
    Finds s schema sighted around [] c c :=
  ⟨h, by simp⟩

theorem Stands.report (h : c.Stands s schema sighted around) (f : Finding) :
    (c.report f).Stands s schema sighted around :=
  ⟨h.settings, h.names, h.scopes⟩

/-- A finding about something else. -/
theorem Finds.report (h : c.Stands s schema sighted around) {f : Finding}
    (hf : f.code.isAboutColumn = false) : Finds s schema sighted around [] c (c.report f) := by
  refine ⟨h.report f, ?_⟩
  simp [Checker.columns, Checker.report, hf]

theorem Stands.inside (h : c.Stands s schema sighted around) (cte : Cte) :
    (c.declare (.ofListed cte)).Stands s schema (.inside cte :: sighted) around := by
  refine ⟨h.settings, ?_, h.scopes⟩
  rw [declare, Names.along, h.names]

theorem Stands.behind (h : c.Stands s schema sighted around) (cte : Cte) :
    (c.declare (.ofDeclared c.names cte)).Stands s schema (.behind cte :: sighted) around := by
  refine ⟨h.settings, ?_, h.scopes⟩
  rw [declare, Names.along, h.names]

/-- What came into sight on the way is forgotten. -/
theorem Stands.forget {more : List Sighted} (h : c.Stands s schema (more ++ sighted) around)
    {count : Nat} (hcount : count = sighted.length) :
    (c.forget count).Stands s schema sighted around := by
  refine ⟨h.settings, ?_, h.scopes⟩
  rw [hcount, ← Names.length_ctes_along CteColumns.ofDeclared schema sighted]
  apply names_forget
  · rw [h.names, Names.schema_along, Names.schema_along]
  · rw [h.names]
    exact Names.exists_along_append schema more sighted

/-- A step that leaves settings, scopes and names alone stays where it is. -/
theorem Stands.keep (h : c.Stands s schema sighted around) {isOutermost : Bool}
    (hadds : Adds isOutermost c c') (hquiet : Quiet c c') :
    c'.Stands s schema sighted around := by
  refine ⟨?_, ?_, ?_⟩
  · rw [hadds.settings, h.settings]
  · rw [hquiet.names, h.names]
  · rw [hadds.scopes, h.scopes]

theorem Finds.forget (more : List Sighted) {uses : List ColumnUse}
    (h : Finds s schema (more ++ sighted) around uses c c') {count : Nat}
    (hcount : count = sighted.length) : Finds s schema sighted around uses c (c'.forget count) :=
  ⟨h.stands.forget hcount, h.columns⟩

theorem Stands.length (h : c.Stands s schema sighted around) :
    c.names.ctes.length = sighted.length := by
  rw [h.names, Names.length_ctes_along]

theorem Stands.enter (h : c.Stands s schema sighted around) (p : Place) :
    (c.enter (p.scope schema)).Stands s schema sighted (p :: around) := by
  refine ⟨h.settings, h.names, ?_⟩
  rw [Checker.enter, h.scopes]
  rfl

theorem Stands.scopeOfSources (h : c.Stands s schema sighted around) (sources : List Source) :
    scopeOfSources c.names sources = Place.scope schema ⟨sighted, sources⟩ := by
  rw [h.names]
  rfl

theorem Stands.leave {p : Place} (h : c.Stands s schema sighted (p :: around)) :
    c.leave.Stands s schema sighted around := by
  refine ⟨h.settings, h.names, ?_⟩
  rw [Checker.leave, h.scopes]
  rfl

theorem checkTable_finds (h : c.Stands s schema sighted around) (name : TableName) :
    Finds s schema sighted around [] c (c.checkTable name) := by
  unfold checkTable
  split
  · exact Finds.refl h
  · exact Finds.report h rfl

/-- The check of a column adds what is found about it where it stands. -/
theorem findings_checkColumn (h : c.Stands s schema sighted around) (aliases : List Text)
    (column : Column) : (checkColumn aliases c column).findings =
      c.findings ++ (if isAlias aliases column then []
        else ColumnUse.findings s schema ⟨around, column⟩) := by
  obtain ⟨qualifier, name⟩ := column
  obtain ⟨settings, names, scopes, findings⟩ := c
  obtain ⟨rfl, -, rfl⟩ := h
  cases qualifier with
  | some q =>
      simp only [checkColumn, checkQualified, isAlias, ColumnUse.findings]
      cases hbound : Scope.lookup? (around.map (Place.scope schema)) q with
      | none => simp
      | some b =>
          simp only [Option.isNone_some, Bool.false_and]
          split
          · rfl
          · simp
  | none =>
      simp only [checkColumn, isAlias, ColumnUse.findings, Option.isNone_none, Bool.true_and,
        List.any_nil]
      split
      · simp
      · simp only [checkUnqualified]
        cases Scope.resolve (around.map (Place.scope schema)) name with
        | found => simp
        | ambiguous labels => rfl
        | missing => rfl

/-- What is found about a column is about a column. -/
theorem isAboutColumn_of_mem_findings {use : ColumnUse} {f : Finding}
    (hf : f ∈ use.findings s schema) : f.code.isAboutColumn = true := by
  obtain ⟨around, ⟨qualifier, name⟩⟩ := use
  cases qualifier with
  | some q =>
      simp only [ColumnUse.findings, checkColumn, checkQualified] at hf
      split at hf
      · contradiction
      · split at hf
        · obtain rfl := List.mem_singleton.mp hf
          rfl
        · contradiction
  | none =>
      simp only [ColumnUse.findings, checkColumn, List.any_nil, Bool.false_eq_true, if_false,
        checkUnqualified] at hf
      split at hf
      · contradiction
      · obtain rfl := List.mem_singleton.mp hf
        rfl
      · obtain rfl := List.mem_singleton.mp hf
        rfl

theorem checkColumn_finds (h : c.Stands s schema sighted around) (aliases : List Text)
    (column : Column) :
    Finds s schema sighted around (if isAlias aliases column then [] else [⟨around, column⟩])
      c (checkColumn aliases c column) := by
  refine ⟨h.keep (checkColumn_adds aliases c column) (checkColumn_quiet aliases c column), ?_⟩
  rw [Checker.columns, findings_checkColumn h, List.filter_append]
  split
  · simp [Checker.columns]
  · rw [List.filter_eq_self.mpr fun f hf => isAboutColumn_of_mem_findings hf]
    simp [Checker.columns]

theorem checkColumns_finds (h : c.Stands s schema sighted around) (aliases : List Text)
    (e : Expression) :
    Finds s schema sighted around (ownUses aliases around e) c (checkColumns aliases c e) := by
  rw [ownUses, checkColumns]
  induction e.columns generalizing c with
  | nil => exact Finds.refl h
  | cons column rest ih =>
      have hfirst := checkColumn_finds h aliases column
      have hrest := hfirst.trans (ih hfirst.stands)
      rw [List.foldl_cons, List.filter_cons]
      cases hskip : isAlias aliases column with
      | true => simpa [hskip] using hrest
      | false => simpa [hskip] using hrest

/-- The end of a `SELECT` closes its scope and finds nothing about a column. -/
theorem endSelect_finds {p : Place} (h : c.Stands s schema sighted (p :: around))
    (isOutermost : Bool) (select : Select) :
    Finds s schema sighted around [] c (endSelect isOutermost c select) := by
  have hleave : Finds s schema sighted around [] c c.leave := ⟨h.leave, by simp [columns, leave]⟩
  unfold endSelect
  dsimp only
  split
  · exact hleave.trans (Finds.report hleave.stands rfl)
  · exact hleave

theorem Finds.of_declare {uses : List ColumnUse} {cte : CteColumns}
    (h : Finds s schema sighted around uses (c.declare cte) c') :
    Finds s schema sighted around uses c c' :=
  ⟨h.stands, h.columns⟩

theorem Finds.of_enter {uses : List ColumnUse} {scope : Scope}
    (h : Finds s schema sighted around uses (c.enter scope) c') :
    Finds s schema sighted around uses c c' :=
  ⟨h.stands, h.columns⟩

mutual

theorem checkQuery_finds (isOutermost : Bool) : ∀ (q : Query) {c : Checker}
    {sighted : List Sighted} {around : List Place}, c.Stands s schema sighted around →
    Finds s schema sighted around (columnUsesOfQuery sighted around q) c
      (checkQuery isOutermost c q)
  | .mk ctes selects order, c, sighted, around, h => by
      have hctes := checkCtes_finds ctes h
      match selects with
      | [select] =>
          have hbegin := hctes.trans (beginSelect_finds select hctes.stands)
          have horder := hbegin.trans (checkAll_finds (aliasesOf select.items) order hbegin.stands)
          have hend := horder.trans (endSelect_finds horder.stands isOutermost select)
          rw [List.append_nil] at hend
          exact hend.forget _ h.length
      | [] =>
          have hselects := hctes.trans (checkSelects_finds isOutermost [] hctes.stands)
          exact (hselects.trans (checkNestedAll_finds order hselects.stands)).forget _ h.length
      | first :: second :: more =>
          have hselects :=
            hctes.trans (checkSelects_finds isOutermost (first :: second :: more) hctes.stands)
          exact (hselects.trans (checkNestedAll_finds order hselects.stands)).forget _ h.length

theorem checkCtes_finds : ∀ (ctes : List Cte) {c : Checker} {sighted : List Sighted}
    {around : List Place}, c.Stands s schema sighted around →
    Finds s schema (sightedBehind sighted ctes) around (columnUsesOfCtes sighted around ctes) c
      (checkCtes c ctes)
  | [], _, _, _, h => Finds.refl h
  | .mk name columns query :: rest, c, sighted, around, h => by
      let cte : Cte := .mk name columns query
      have hquery := (checkQuery_finds false query (h.inside cte)).of_declare
      have hforget := hquery.forget [.inside cte] h.length
      have hrest := checkCtes_finds rest (hforget.stands.behind cte)
      have hbehind : sightedBehind sighted (cte :: rest) =
          sightedBehind (.behind cte :: sighted) rest := by
        simp [sightedBehind]
      rw [hbehind]
      exact hforget.trans hrest.of_declare

theorem checkSelects_finds (isOutermost : Bool) : ∀ (selects : List Select) {c : Checker}
    {sighted : List Sighted} {around : List Place}, c.Stands s schema sighted around →
    Finds s schema sighted around (columnUsesOfSelects sighted around selects) c
      (checkSelects isOutermost c selects)
  | [], _, _, _, h => Finds.refl h
  | select :: rest, c, sighted, around, h => by
      have hbegin := beginSelect_finds select h
      have hend := hbegin.trans (endSelect_finds hbegin.stands isOutermost select)
      rw [List.append_nil] at hend
      exact hend.trans (checkSelects_finds isOutermost rest hend.stands)

theorem beginSelect_finds : ∀ (select : Select) {c : Checker} {sighted : List Sighted}
    {around : List Place}, c.Stands s schema sighted around →
    Finds s schema sighted (⟨sighted, select.sources⟩ :: around)
      (columnUsesOfSelect sighted around select) c (beginSelect c select)
  | .mk items sources selection groups having, c, sighted, around, h => by
      have hsources := checkSources_finds sources h
      have henter := hsources.stands.enter ⟨sighted, sources⟩
      have hjoined := hsources.trans (checkJoined_finds sources henter).of_enter
      have hitems := hjoined.trans (checkItems_finds items hjoined.stands)
      have hselection := hitems.trans (checkOption_finds selection hitems.stands)
      have hgroups := hselection.trans (checkAll_finds [] groups hselection.stands)
      have hhaving := hgroups.trans (checkOption_finds having hgroups.stands)
      rw [← h.scopeOfSources] at hhaving
      exact hhaving

theorem checkSources_finds : ∀ (sources : List Source) {c : Checker} {sighted : List Sighted}
    {around : List Place}, c.Stands s schema sighted around →
    Finds s schema sighted around (columnUsesOfSources sighted around sources) c
      (checkSources c sources)
  | [], _, _, _, h => Finds.refl h
  | source :: rest, c, sighted, around, h => by
      have hsource := checkSource_finds source h
      exact hsource.trans (checkSources_finds rest hsource.stands)

theorem checkSource_finds : ∀ (source : Source) {c : Checker} {sighted : List Sighted}
    {around : List Place}, c.Stands s schema sighted around →
    Finds s schema sighted around (columnUsesOfSource sighted around source) c
      (checkSource c source)
  | .mk relation joins, c, sighted, around, h => by
      have hrelation := checkRelation_finds relation h
      exact hrelation.trans (checkJoins_finds joins hrelation.stands)

theorem checkJoins_finds : ∀ (joins : List Join) {c : Checker} {sighted : List Sighted}
    {around : List Place}, c.Stands s schema sighted around →
    Finds s schema sighted around (columnUsesOfJoins sighted around joins) c (checkJoins c joins)
  | [], _, _, _, h => Finds.refl h
  | .mk relation _ :: rest, c, sighted, around, h => by
      have hrelation := checkRelation_finds relation h
      exact hrelation.trans (checkJoins_finds rest hrelation.stands)

theorem checkRelation_finds : ∀ (relation : Relation) {c : Checker} {sighted : List Sighted}
    {around : List Place}, c.Stands s schema sighted around →
    Finds s schema sighted around (columnUsesOfRelation sighted around relation) c
      (checkRelation c relation)
  | .table name _, _, _, _, h => checkTable_finds h name
  | .derived query _, _, _, _, h => checkQuery_finds false query h
  | .nested source, _, _, _, h => checkSource_finds source h
  | .other _, _, _, _, h => Finds.refl h

theorem checkJoined_finds : ∀ (sources : List Source) {c : Checker} {sighted : List Sighted}
    {around : List Place}, c.Stands s schema sighted around →
    Finds s schema sighted around (joinedUses sighted around sources) c (checkJoined c sources)
  | [], _, _, _, h => Finds.refl h
  | source :: rest, c, sighted, around, h => by
      have hsource := checkConditions_finds source h
      exact hsource.trans (checkJoined_finds rest hsource.stands)

theorem checkConditions_finds : ∀ (source : Source) {c : Checker} {sighted : List Sighted}
    {around : List Place}, c.Stands s schema sighted around →
    Finds s schema sighted around (conditionUses sighted around source) c
      (checkConditions c source)
  | .mk relation joins, c, sighted, around, h => by
      have hgroup := checkGroup_finds relation h
      exact hgroup.trans (checkJoinConditions_finds joins hgroup.stands)

theorem checkJoinConditions_finds : ∀ (joins : List Join) {c : Checker} {sighted : List Sighted}
    {around : List Place}, c.Stands s schema sighted around →
    Finds s schema sighted around (joinUses sighted around joins) c (checkJoinConditions c joins)
  | [], _, _, _, h => Finds.refl h
  | .mk relation on :: rest, c, sighted, around, h => by
      have hgroup := checkGroup_finds relation h
      have hon := hgroup.trans (checkOption_finds on hgroup.stands)
      exact hon.trans (checkJoinConditions_finds rest hon.stands)

theorem checkGroup_finds : ∀ (relation : Relation) {c : Checker} {sighted : List Sighted}
    {around : List Place}, c.Stands s schema sighted around →
    Finds s schema sighted around (groupUses sighted around relation) c (checkGroup c relation)
  | .table _ _, _, _, _, h => Finds.refl h
  | .derived _ _, _, _, _, h => Finds.refl h
  | .nested source, _, _, _, h => checkConditions_finds source h
  | .other _, _, _, _, h => Finds.refl h

theorem checkItems_finds : ∀ (items : List Item) {c : Checker} {sighted : List Sighted}
    {around : List Place}, c.Stands s schema sighted around →
    Finds s schema sighted around (columnUsesOfItems sighted around items) c (checkItems c items)
  | [], _, _, _, h => Finds.refl h
  | .value e _ :: rest, c, sighted, around, h => by
      have hown := checkColumns_finds h [] e
      have hvalue := hown.trans (checkNested_finds e hown.stands)
      exact hvalue.trans (checkItems_finds rest hvalue.stands)
  | .star :: rest, _, _, _, h => checkItems_finds rest h
  | .starOf _ :: rest, _, _, _, h => checkItems_finds rest h

theorem checkOption_finds : ∀ (e : Option Expression) {c : Checker} {sighted : List Sighted}
    {around : List Place}, c.Stands s schema sighted around →
    Finds s schema sighted around (columnUsesOfOption sighted around e) c (checkOption c e)
  | none, _, _, _, h => Finds.refl h
  | some e, c, sighted, around, h => by
      have hown := checkColumns_finds h [] e
      exact hown.trans (checkNested_finds e hown.stands)

theorem checkAll_finds (aliases : List Text) : ∀ (es : List Expression) {c : Checker}
    {sighted : List Sighted} {around : List Place}, c.Stands s schema sighted around →
    Finds s schema sighted around (columnUsesOfAll aliases sighted around es) c
      (checkAll aliases c es)
  | [], _, _, _, h => Finds.refl h
  | e :: rest, c, sighted, around, h => by
      have hown := checkColumns_finds h aliases e
      have hfirst := hown.trans (checkNested_finds e hown.stands)
      exact hfirst.trans (checkAll_finds aliases rest hfirst.stands)

theorem checkNested_finds : ∀ (e : Expression) {c : Checker} {sighted : List Sighted}
    {around : List Place}, c.Stands s schema sighted around →
    Finds s schema sighted around (nestedUses sighted around e) c (checkNested c e)
  | .column _, _, _, _, h => Finds.refl h
  | .subquery query, _, _, _, h => checkQuery_finds false query h
  | .all parts, _, _, _, h => checkNestedAll_finds parts h
  | .literal, _, _, _, h => Finds.refl h

theorem checkNestedAll_finds : ∀ (es : List Expression) {c : Checker} {sighted : List Sighted}
    {around : List Place}, c.Stands s schema sighted around →
    Finds s schema sighted around (nestedUsesOfAll sighted around es) c (checkNestedAll c es)
  | [], _, _, _, h => Finds.refl h
  | e :: rest, c, sighted, around, h => by
      have hfirst := checkNested_finds e h
      exact hfirst.trans (checkNestedAll_finds rest hfirst.stands)

end

/-- The check of the columns that a statement lists of a table adds those that are missing. -/
theorem findings_checkTarget (schema : Schema) (hsettings : c.settings = s) (t : Schema.Table)
    (listed : List Text) : (listed.foldl (checkTarget t) c).findings = c.findings ++
      (listed.filter fun column => (t.column? column).isNone).map fun column =>
        missingColumn ⟨s, ⟨schema, []⟩, [], []⟩ none column t.qualifiedName t.columnNames := by
  induction listed generalizing c with
  | nil => simp
  | cons column rest ih =>
      have hkept : (checkTarget t c column).settings = s :=
        (checkTarget_adds t c column).settings.trans hsettings
      have hmissing : missingColumn c none column t.qualifiedName t.columnNames =
          missingColumn ⟨s, ⟨schema, []⟩, [], []⟩ none column t.qualifiedName t.columnNames := by
        rw [missingColumn, suggest?, hsettings]
        rfl
      rw [List.foldl_cons, ih hkept, List.filter_cons, checkTarget, hmissing]
      cases t.column? column <;> simp [report]

/-- A check that lists the columns of its target. -/
theorem checkTargets_stands (h : c.Stands s schema sighted around) (meaning : Option Meaning)
    (listed : List Text) : (c.checkTargets meaning listed).Stands s schema sighted around :=
  h.keep (checkTargets_adds c meaning listed) (checkTargets_quiet c meaning listed)

theorem columns_checkTargets (h : c.Stands s schema sighted around) {t : Text} {st : Statement}
    {target : Option TableName} {listed : List Text}
    (hlisted : listedColumns t st = (target, listed)) {meaning : Option Meaning}
    (hmeaning : meaning.bind Meaning.table? =
      (target.bind (Names.meaning? ⟨schema, []⟩)).bind Meaning.table?) :
    (c.checkTargets meaning listed).columns = c.columns ++ targetFindings s schema t st := by
  rw [checkTargets, targetFindings, hlisted]
  dsimp only
  rw [← hmeaning]
  cases meaning.bind Meaning.table? with
  | none => simp
  | some table =>
      dsimp only
      rw [columns, findings_checkTarget schema h.settings, List.filter_append]
      congr 1
      rw [List.filter_eq_self]
      intro f hf
      obtain ⟨column, -, rfl⟩ := List.mem_map.mp hf
      rfl

theorem checkRelations_finds (h : c.Stands s schema sighted around) (table : Option TableName)
    (alias? : Option Text) : Finds s schema sighted around [] c
      ((table.toList.map fun name => Relation.table name alias?).foldl checkRelation c) := by
  cases table with
  | none => exact Finds.refl h
  | some name => exact checkTable_finds h name

theorem columns_checkUpdate (h : c.Stands s schema [] []) (t : Text) (table : Option TableName)
    (alias? : Option Text) (assigned : List Text) (values : List Expression)
    (selection : Option Expression) :
    let st : Statement := .update table alias? assigned values selection
    (c.checkStatement t st).columns = c.columns ++ targetFindings s schema t st ++
      (columnUses t st).flatMap (ColumnUse.findings s schema) := by
  intro st
  have hadvise (checked : Checker) (advised : Bool) :
      (if advised then checked.adviseUpdate table else checked).columns = checked.columns := by
    cases advised <;> simp [adviseUpdate, columns, report, Code.isAboutColumn]
  simp only [st, checkStatement, columnUses, hadvise]
  cases hfrom : updatesFrom t with
  | true => simp [targetFindings, listedColumns, hfrom]
  | false =>
      have hlisted : listedColumns t st = (table, assigned) := by
        simp [st, listedColumns, hfrom]
      let target : Place := ⟨[], table.toList.map fun name => .mk (.table name alias?) []⟩
      have hscope : (table.toList.map fun name => Relation.table name alias?).flatMap
          (scopeOfRelation c.names) = target.scope schema := by
        rw [← h.scopeOfSources]
        cases table <;> simp [scopeOfSources, scopeOfSource, scopeOfJoins]
      have htable := checkRelations_finds h table alias?
      have hmeaning : ((target.scope schema).head?.map Bound.meaning).bind Meaning.table? =
          (table.bind (Names.meaning? ⟨schema, []⟩)).bind Meaning.table? := by
        cases table with
        | none => rfl
        | some name =>
            change (((Names.mk schema []).meaning? name).getD .unknown).table? =
              ((Names.mk schema []).meaning? name).bind Meaning.table?
            cases (Names.mk schema []).meaning? name <;> rfl
      have htargets := checkTargets_stands htable.stands
        ((target.scope schema).head?.map Bound.meaning) assigned
      have hcolumns := columns_checkTargets htable.stands hlisted hmeaning
      have hvalues := (checkAll_finds [] values (htargets.enter target)).of_enter
      have hselection := hvalues.trans (checkOption_finds selection hvalues.stands)
      rw [htable.columns, List.flatMap_nil, List.append_nil] at hcolumns
      simp only [hscope, if_neg Bool.false_ne_true]
      rw [← hcolumns]
      exact hselection.columns

theorem columns_checkStatement (h : c.Stands s schema [] []) (t : Text) (st : Statement) :
    (c.checkStatement t st).columns = c.columns ++ targetFindings s schema t st ++
      (columnUses t st).flatMap (ColumnUse.findings s schema) := by
  have hn : c.names = ⟨schema, []⟩ := h.names
  cases st with
  | select query =>
      have hnone : targetFindings s schema t (.select query) = [] := rfl
      rw [hnone, List.append_nil]
      exact (checkQuery_finds true query h).columns
  | insert table listed source =>
      have htable := checkTable_finds h table
      have hmeaning : (c.names.meaning? table).bind Meaning.table? =
          ((some table).bind (Names.meaning? ⟨schema, []⟩)).bind Meaning.table? := by
        rw [hn]
        rfl
      have hlisted : listedColumns t (.insert table listed source) = (some table, listed) := rfl
      have hcolumns := columns_checkTargets htable.stands hlisted hmeaning
      have htargets := checkTargets_stands htable.stands (c.names.meaning? table) listed
      rw [htable.columns, List.flatMap_nil, List.append_nil] at hcolumns
      rw [← hcolumns]
      simp only [checkStatement]
      cases source with
      | none => exact (Finds.refl htargets).columns
      | some query => exact (checkQuery_finds false query htargets).columns
  | update table alias? assigned values selection =>
      exact columns_checkUpdate h t table alias? assigned values selection
  | delete sources selection =>
      have hadvise (checked : Checker) (advised : Bool) :
          (if advised then checked.adviseDelete else checked).columns = checked.columns := by
        cases advised <;> simp [adviseDelete, columns, report, Code.isAboutColumn]
      have hsources := checkSources_finds sources h
      have henter := hsources.stands.enter ⟨[], sources⟩
      have hjoined := hsources.trans (checkJoined_finds sources henter).of_enter
      have hselection := hjoined.trans (checkOption_finds selection hjoined.stands)
      rw [← h.scopeOfSources] at hselection
      have hnone : targetFindings s schema t (.delete sources selection) = [] := rfl
      simp only [checkStatement, hadvise, hnone, List.append_nil]
      exact hselection.columns
  | other =>
      have hnone : targetFindings s schema t .other = [] := rfl
      rw [hnone, List.append_nil]
      exact (Finds.refl h).columns

end Checker

/-- What is found about columns in a statement: first what is missing of those that it lists of its
target, and then column by column what is found about those that it names. -/
theorem columns_statementFindings (s : Settings) (schema : Schema) (t : Text) (st : Statement) :
    (statementFindings s schema st t).filter (·.code.isAboutColumn) =
      targetFindings s schema t st ++ (columnUses t st).flatMap (ColumnUse.findings s schema) :=
  Checker.columns_checkStatement (c := ⟨s, ⟨schema, []⟩, [], []⟩) ⟨rfl, rfl, rfl⟩ t st

section

variable (n : Names)

mutual

/-- A `FROM` list binds its relations in the order they are written. -/
theorem scopeOfSources_eq : ∀ sources : List Source, scopeOfSources n sources =
    (relationsOfSources sources).map fun r => ⟨relationKey r, n.standsFor r⟩
  | [] => by simp [scopeOfSources, relationsOfSources]
  | source :: rest => by
      rw [scopeOfSources, relationsOfSources, List.map_append, scopeOfSource_eq source,
        scopeOfSources_eq rest]

theorem scopeOfSource_eq : ∀ source : Source, scopeOfSource n source =
    (relationsOfSource source).map fun r => ⟨relationKey r, n.standsFor r⟩
  | .mk relation joins => by
      rw [scopeOfSource, relationsOfSource, List.map_append, scopeOfRelation_eq relation,
        scopeOfJoins_eq joins]

theorem scopeOfJoins_eq : ∀ joins : List Join, scopeOfJoins n joins =
    (relationsOfJoins joins).map fun r => ⟨relationKey r, n.standsFor r⟩
  | [] => by simp [scopeOfJoins, relationsOfJoins]
  | .mk relation on :: rest => by
      rw [scopeOfJoins, relationsOfJoins, List.map_append, scopeOfRelation_eq relation,
        scopeOfJoins_eq rest]

theorem scopeOfRelation_eq : ∀ relation : Relation, scopeOfRelation n relation =
    (relationsOfRelation relation).map fun r => ⟨relationKey r, n.standsFor r⟩
  | .table _ _ => rfl
  | .derived _ _ => rfl
  | .nested source => by
      rw [scopeOfRelation, relationsOfRelation, scopeOfSource_eq source]
  | .other _ => rfl

end

end

theorem Names.Hides.standsFor {n : Names} {r : Relation} (h : n.Hides r) :
    n.standsFor r = .unknown := by
  cases r with
  | table name alias? =>
      rcases h with hnone | hunknown
      · exact congrArg (Option.getD · .unknown) hnone
      · exact congrArg (Option.getD · .unknown) hunknown
  | derived query alias? =>
      have hcolumns : queryColumns? n query = none := h
      rw [Names.standsFor, derivedMeaning, hcolumns]
  | nested source => rfl
  | other alias? => rfl

/-- A place with a relation of unknown columns may have any column. -/
theorem Place.not_lacks {schema : Schema} {p : Place} {r : Relation}
    (hr : r ∈ relationsOfSources p.sources) (hhides : (p.names schema).Hides r) (column : Text) :
    ¬ Scope.Lacks column (p.scope schema) := by
  intro hlacks
  have hscope : ⟨relationKey r, (p.names schema).standsFor r⟩ ∈ p.scope schema := by
    rw [Place.scope, scopeOfSources_eq]
    exact List.mem_map_of_mem hr
  exact (hlacks _ hscope).2 hhides.standsFor

/-- An unqualified column gives at most one finding. It is missing exactly if some open scope binds
something and nothing in any of them may have the column, and ambiguous exactly if several bindings
have it in the innermost scope in which something may have it, which the message names in their
order. What is found about columns in a statement comes from those it lists of its target and from
those it names, one by one; and no unqualified column that it names is missing where a relation of
a `FROM` list around it is a missing table or has unknown columns. The list of a `SELECT` is around
all that the `SELECT` and the queries nested in its expressions name. -/
theorem unqualified_columns :
    (∀ (c : Checker) (name : Text), ∃ added,
      (c.checkUnqualified name).findings = c.findings ++ added ∧ added.length ≤ 1 ∧
      (∀ f ∈ added, f.anchor = .identifier none name) ∧
      ((∃ f ∈ added, f.code = .columnNotFound) ↔
        (∃ scope ∈ c.scopes, scope ≠ []) ∧ ∀ scope ∈ c.scopes, Scope.Lacks name scope) ∧
      ∀ message, (∃ f ∈ added, f.code = .ambiguousColumn ∧ f.message = message) ↔
        ∃ several, Scope.AmbiguousAmong c.scopes name several ∧
          message = Checker.ambiguousMessage name several) ∧
    (∀ (s : Settings) (schema : Schema) (t : Text) (st : Statement),
      (statementFindings s schema st t).filter (·.code.isAboutColumn) =
        targetFindings s schema t st ++ (columnUses t st).flatMap (ColumnUse.findings s schema) ∧
      ∀ use ∈ columnUses t st, use.column.qualifier = none →
        (∃ p ∈ use.around, ∃ r ∈ relationsOfSources p.sources, (p.names schema).Hides r) →
        ∀ f ∈ use.findings s schema, f.code ≠ .columnNotFound) ∧
    ∀ (sighted : List Sighted) (around : List Place) (select : Select), ∃ own,
      columnUsesOfSelect sighted around select =
        columnUsesOfSources sighted around select.sources ++ own ∧
      Within (⟨sighted, select.sources⟩ :: around) own := by
  refine ⟨Checker.exists_checkUnqualified, ?_, columnUsesOfSelect_append⟩
  intro s schema t st
  refine ⟨columns_statementFindings s schema t st, ?_⟩
  rintro ⟨around, ⟨qualifier, name⟩⟩ _ hqualifier ⟨p, hp, r, hr, hhides⟩ f hf hcode
  obtain rfl : qualifier = none := hqualifier
  let c : Checker := ⟨s, ⟨schema, []⟩, around.map (Place.scope schema), []⟩
  obtain ⟨added, hadded, -, -, hmissing, -⟩ := c.exists_checkUnqualified name
  have hmem : f ∈ added := by
    have hfindings : (c.checkUnqualified name).findings = added := hadded
    rw [← hfindings]
    exact hf
  obtain ⟨-, hlacks⟩ := hmissing.mp ⟨f, hmem, hcode⟩
  exact Place.not_lacks hr hhides name (hlacks _ (List.mem_map_of_mem hp))

/-- A query that is nested beside a table that is missing may name any column. -/
theorem unqualified_columns_beside_missing_table :
    let nested : Query :=
      .mk [] [.mk [.value (.column ⟨none, "nope".toList⟩) none]
        [.mk (.table ⟨none, "Users".toList⟩ none) []] none [] none] []
    let query : Query :=
      .mk [] [.mk [.value (.subquery nested) none]
        [.mk (.table ⟨none, "Gone".toList⟩ none) []] none [] none] []
    ∃ use ∈ columnUses [] (.select query), use.column.qualifier = none ∧
      (∃ p ∈ use.around, ∃ r ∈ relationsOfSources p.sources, (p.names plainShop).Hides r) ∧
      (∃ f ∈ statementFindings {} plainShop (.select query) [], f.code = .tableNotFound) ∧
      ∀ f ∈ use.findings {} plainShop, f.code ≠ .columnNotFound := by
  intro nested query
  let gone : Place := ⟨[], [.mk (.table ⟨none, "Gone".toList⟩ none) []]⟩
  let known : Place := ⟨[], [.mk (.table ⟨none, "Users".toList⟩ none) []]⟩
  let use : ColumnUse := ⟨[known, gone], ⟨none, "nope".toList⟩⟩
  have huse : use ∈ columnUses [] (.select query) := List.mem_singleton.mpr rfl
  have hhides : (gone.names plainShop).Hides (.table ⟨none, "Gone".toList⟩ none) :=
    Or.inl (by decide)
  have haround :
      ∃ p ∈ use.around, ∃ r ∈ relationsOfSources p.sources, (p.names plainShop).Hides r :=
    ⟨gone, by simp [use], _, List.mem_singleton.mpr rfl, hhides⟩
  have hfound := (unqualified_columns.2.1 {} plainShop [] (.select query)).2 use huse rfl haround
  exact ⟨use, huse, rfl, haround, ⟨_, List.mem_singleton.mpr rfl, rfl⟩, hfound⟩

end SqlInsight.Validation
