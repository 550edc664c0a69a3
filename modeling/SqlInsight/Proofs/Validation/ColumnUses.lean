/-
The columns that a statement names, each with the `FROM` lists around it, and each of these with the
common table expressions that are in sight where it stands. What a check finds about columns are
the findings about those a statement lists of its target, and behind them, column by column in the
order of the check, what comes of looking each up in what the lists around it bind.
-/
import SqlInsight.Proofs.Validation.Advice
import SqlInsight.Proofs.Validation.Sight

namespace SqlInsight

/-- Whether a finding of that kind is about a column. -/
def Code.isAboutColumn : Code → Bool
  | columnNotFound | ambiguousColumn => true
  | syntaxError | tableNotFound | selectStar | updateWithoutWhere | deleteWithoutWhere => false

namespace Validation

open Outline

/-- A common table expression in sight: from inside its own query, or from behind it. -/
inductive Sighted where
  | inside (cte : Cte)
  | behind (cte : Cte)

/-- A `FROM` list, and the common table expressions in sight where it stands, the last one first. -/
structure Place where
  sighted : List Sighted
  sources : List Source

/-- A column that is named, and the `FROM` lists around it, the innermost one first. -/
structure ColumnUse where
  around : List Place
  column : Column

/-- A common table expression as its own query sees it, with the columns that it lists. -/
def CteColumns.ofListed (c : Cte) : CteColumns :=
  ⟨c.name, if c.columns.isEmpty then none else some c.columns⟩

/-- The names in sight along with common table expressions. How one comes into sight behind its
query is up to `comes`. -/
def Names.along (comes : Names → Cte → CteColumns) (schema : Schema) : List Sighted → Names
  | [] => ⟨schema, []⟩
  | .inside cte :: outer =>
      let n := along comes schema outer
      { n with ctes := CteColumns.ofListed cte :: n.ctes }
  | .behind cte :: outer =>
      let n := along comes schema outer
      { n with ctes := comes n cte :: n.ctes }

/-- The names that a check has in sight in a place. -/
def Place.names (schema : Schema) (p : Place) : Names :=
  Names.along CteColumns.ofDeclared schema p.sighted

/-- What the `FROM` list of a place binds. -/
def Place.scope (schema : Schema) (p : Place) : Scope :=
  scopeOfSources (p.names schema) p.sources

/-- What is found about a column where it is named. -/
def ColumnUse.findings (s : Settings) (schema : Schema) (use : ColumnUse) : List Finding :=
  (Checker.checkColumn [] ⟨s, ⟨schema, []⟩, use.around.map (Place.scope schema), []⟩
    use.column).findings

/-- Whether a column is one of the names that stand for themselves. -/
def isAlias (aliases : List Text) (column : Column) : Bool :=
  column.qualifier.isNone && aliases.any fun a => a.sameAscii column.name

/-- What is in sight behind common table expressions. -/
def sightedBehind (sighted : List Sighted) (ctes : List Cte) : List Sighted :=
  (ctes.map Sighted.behind).reverse ++ sighted

/-- The columns that an expression names outside its queries, leaving out the names that stand for
themselves. -/
def ownUses (aliases : List Text) (around : List Place) (e : Expression) : List ColumnUse :=
  (e.columns.filter fun column => !isAlias aliases column).map (⟨around, ·⟩)

mutual

def columnUsesOfQuery (sighted : List Sighted) (around : List Place) : Query → List ColumnUse
  | .mk ctes [select] order =>
      let inner := sightedBehind sighted ctes
      columnUsesOfCtes sighted around ctes ++ columnUsesOfSelect inner around select
        ++ columnUsesOfAll (aliasesOf select.items) inner (⟨inner, select.sources⟩ :: around) order
  | .mk ctes selects order =>
      let inner := sightedBehind sighted ctes
      columnUsesOfCtes sighted around ctes ++ columnUsesOfSelects inner around selects
        ++ nestedUsesOfAll inner around order

/-- The columns that the queries of common table expressions name. -/
def columnUsesOfCtes (sighted : List Sighted) (around : List Place) : List Cte → List ColumnUse
  | [] => []
  | .mk name columns query :: rest =>
      columnUsesOfQuery (.inside (.mk name columns query) :: sighted) around query
        ++ columnUsesOfCtes (.behind (.mk name columns query) :: sighted) around rest

/-- The columns that some `SELECT`s name. -/
def columnUsesOfSelects (sighted : List Sighted) (around : List Place) :
    List Select → List ColumnUse
  | [] => []
  | select :: rest =>
      columnUsesOfSelect sighted around select ++ columnUsesOfSelects sighted around rest

/-- The columns that a `SELECT` names. Its own `FROM` list is around all of them but those in the
derived tables of the list. -/
def columnUsesOfSelect (sighted : List Sighted) (around : List Place) : Select → List ColumnUse
  | .mk items sources selection groups having =>
      let inner := ⟨sighted, sources⟩ :: around
      columnUsesOfSources sighted around sources ++ joinedUses sighted inner sources
        ++ columnUsesOfItems sighted inner items ++ columnUsesOfOption sighted inner selection
        ++ columnUsesOfAll [] sighted inner groups ++ columnUsesOfOption sighted inner having

/-- The columns that the derived tables of a `FROM` list name. -/
def columnUsesOfSources (sighted : List Sighted) (around : List Place) :
    List Source → List ColumnUse
  | [] => []
  | s :: rest => columnUsesOfSource sighted around s ++ columnUsesOfSources sighted around rest

/-- The columns that the derived tables of an item of a `FROM` list name. -/
def columnUsesOfSource (sighted : List Sighted) (around : List Place) : Source → List ColumnUse
  | .mk relation joins =>
      columnUsesOfRelation sighted around relation ++ columnUsesOfJoins sighted around joins

/-- The columns that the derived tables of some joins name. -/
def columnUsesOfJoins (sighted : List Sighted) (around : List Place) : List Join → List ColumnUse
  | [] => []
  | .mk relation _ :: rest =>
      columnUsesOfRelation sighted around relation ++ columnUsesOfJoins sighted around rest

/-- The columns that a derived table names, or those of a group. -/
def columnUsesOfRelation (sighted : List Sighted) (around : List Place) :
    Relation → List ColumnUse
  | .table _ _ => []
  | .derived query _ => columnUsesOfQuery sighted around query
  | .nested source => columnUsesOfSource sighted around source
  | .other _ => []

/-- The columns that the conditions of the joins of a `FROM` list name. -/
def joinedUses (sighted : List Sighted) (around : List Place) : List Source → List ColumnUse
  | [] => []
  | s :: rest => conditionUses sighted around s ++ joinedUses sighted around rest

/-- The columns that the conditions of the joins of an item of a `FROM` list name. -/
def conditionUses (sighted : List Sighted) (around : List Place) : Source → List ColumnUse
  | .mk relation joins => groupUses sighted around relation ++ joinUses sighted around joins

/-- The columns that the conditions of some joins name. -/
def joinUses (sighted : List Sighted) (around : List Place) : List Join → List ColumnUse
  | [] => []
  | .mk relation on :: rest =>
      groupUses sighted around relation ++ columnUsesOfOption sighted around on
        ++ joinUses sighted around rest

/-- The columns that the conditions of the joins of a group name. -/
def groupUses (sighted : List Sighted) (around : List Place) : Relation → List ColumnUse
  | .nested source => conditionUses sighted around source
  | .table _ _ | .derived _ _ | .other _ => []

/-- The columns that the items of a `SELECT` list name. -/
def columnUsesOfItems (sighted : List Sighted) (around : List Place) : List Item → List ColumnUse
  | [] => []
  | .value e _ :: rest =>
      ownUses [] around e ++ nestedUses sighted around e
        ++ columnUsesOfItems sighted around rest
  | .star :: rest => columnUsesOfItems sighted around rest
  | .starOf _ :: rest => columnUsesOfItems sighted around rest

/-- The columns that an expression names, which may be missing. -/
def columnUsesOfOption (sighted : List Sighted) (around : List Place) :
    Option Expression → List ColumnUse
  | none => []
  | some e => ownUses [] around e ++ nestedUses sighted around e

/-- The columns that some expressions name. -/
def columnUsesOfAll (aliases : List Text) (sighted : List Sighted) (around : List Place) :
    List Expression → List ColumnUse
  | [] => []
  | e :: rest =>
      ownUses aliases around e ++ nestedUses sighted around e
        ++ columnUsesOfAll aliases sighted around rest

/-- The columns that the queries in an expression name. -/
def nestedUses (sighted : List Sighted) (around : List Place) :
    Expression → List ColumnUse
  | .subquery query => columnUsesOfQuery sighted around query
  | .all parts => nestedUsesOfAll sighted around parts
  | .column _ | .literal => []

/-- The columns that the queries in some expressions name. -/
def nestedUsesOfAll (sighted : List Sighted) (around : List Place) :
    List Expression → List ColumnUse
  | [] => []
  | e :: rest => nestedUses sighted around e ++ nestedUsesOfAll sighted around rest

end

/-- The columns that a statement with that text names, apart from those of its target that it lists.
An update with a `FROM` list of its own is passed over. -/
def columnUses (t : Text) : Statement → List ColumnUse
  | .select query => columnUsesOfQuery [] [] query
  | .insert _ _ source => source.elim [] (columnUsesOfQuery [] [])
  | .update table alias? _ values selection =>
      if Checker.updatesFrom t then []
      else
        let target : Place := ⟨[], table.toList.map fun name => .mk (.table name alias?) []⟩
        columnUsesOfAll [] [] [target] values ++ columnUsesOfOption [] [target] selection
  | .delete sources selection =>
      let inner : List Place := [⟨[], sources⟩]
      columnUsesOfSources [] [] sources ++ joinedUses [] inner sources
        ++ columnUsesOfOption [] inner selection
  | .other => []

/-- The columns that a statement with that text lists of its target, and the target. -/
def listedColumns (t : Text) : Statement → Option TableName × List Text
  | .insert table columns _ => (some table, columns)
  | .update table _ assigned _ _ => if Checker.updatesFrom t then (none, []) else (table, assigned)
  | .select _ | .delete _ _ | .other => (none, [])

/-- What is found about the columns that a statement lists of its target: those that are missing, if
the target is a known table. -/
def targetFindings (s : Settings) (schema : Schema) (t : Text) (statement : Statement) :
    List Finding :=
  let (target, columns) := listedColumns t statement
  match (target.bind (Names.meaning? ⟨schema, []⟩)).bind Meaning.table? with
  | some table =>
      (columns.filter fun column => (table.column? column).isNone).map fun column =>
        Checker.missingColumn ⟨s, ⟨schema, []⟩, [], []⟩ none column table.qualifiedName
          table.columnNames
  | none => []

mutual

/-- The relations of a `FROM` list, those in a group on their own. -/
def relationsOfSources : List Source → List Relation
  | [] => []
  | s :: rest => relationsOfSource s ++ relationsOfSources rest

/-- The relations of an item of a `FROM` list, those in a group on their own. -/
def relationsOfSource : Source → List Relation
  | .mk relation joins => relationsOfRelation relation ++ relationsOfJoins joins

/-- The relations of some joins, those in a group on their own. -/
def relationsOfJoins : List Join → List Relation
  | [] => []
  | .mk relation _ :: rest => relationsOfRelation relation ++ relationsOfJoins rest

/-- A relation, or those in a group on their own. -/
def relationsOfRelation : Relation → List Relation
  | .nested source => relationsOfSource source
  | .table name alias? => [.table name alias?]
  | .derived query alias? => [.derived query alias?]
  | .other alias? => [.other alias?]

end

def relationKey : Relation → Text
  | .table name alias? => alias?.getD name.name
  | .derived _ alias? | .other alias? => alias?.getD []
  | .nested _ => []

def Names.standsFor (n : Names) : Relation → Meaning
  | .table name _ => (n.meaning? name).getD .unknown
  | .derived query alias? => derivedMeaning n query alias?
  | .nested _ | .other _ => .unknown

/-- The columns of a relation cannot be known: it is a missing table, or it stands for something of
unknown columns. -/
def Names.Hides (n : Names) : Relation → Prop
  | .table name _ => n.meaning? name = none ∨ n.meaning? name = some .unknown
  | .derived query _ => queryColumns? n query = none
  | .nested _ => False
  | .other _ => True

/-- Columns that are named within these `FROM` lists. -/
def Within (around : List Place) (uses : List ColumnUse) : Prop :=
  ∀ use ∈ uses, around <:+ use.around

theorem within_nil (around : List Place) : Within around [] :=
  fun _ huse => absurd huse List.not_mem_nil

theorem Within.append {around : List Place} {first second : List ColumnUse}
    (h : Within around first) (h' : Within around second) : Within around (first ++ second) :=
  List.forall_mem_append.mpr ⟨h, h'⟩

/-- What is named within one more list is named within the lists around that. -/
theorem Within.of_cons {p : Place} {around : List Place} {uses : List ColumnUse}
    (h : Within (p :: around) uses) : Within around uses :=
  fun use huse => (List.suffix_cons p around).trans (h use huse)

theorem ownUses_within (aliases : List Text) (around : List Place) (e : Expression) :
    Within around (ownUses aliases around e) := by
  intro use huse
  obtain ⟨column, -, rfl⟩ := List.mem_map.mp huse
  exact List.suffix_refl around

mutual

theorem columnUsesOfQuery_within : ∀ (q : Query) (sighted : List Sighted) (around : List Place),
    Within around (columnUsesOfQuery sighted around q)
  | .mk ctes selects order, sighted, around => by
      have hctes := columnUsesOfCtes_within ctes sighted around
      match selects with
      | [select] =>
          have hselect := columnUsesOfSelect_within select (sightedBehind sighted ctes) around
          exact (hctes.append hselect).append (columnUsesOfAll_within _ order _ _).of_cons
      | [] =>
          exact (hctes.append (within_nil around)).append (nestedUsesOfAll_within order _ around)
      | first :: second :: more =>
          have hselects := columnUsesOfSelects_within (first :: second :: more)
            (sightedBehind sighted ctes) around
          exact (hctes.append hselects).append (nestedUsesOfAll_within order _ around)

theorem columnUsesOfCtes_within : ∀ (ctes : List Cte) (sighted : List Sighted)
    (around : List Place), Within around (columnUsesOfCtes sighted around ctes)
  | [], _, around => within_nil around
  | .mk _ _ query :: rest, _, around =>
      (columnUsesOfQuery_within query _ around).append (columnUsesOfCtes_within rest _ around)

theorem columnUsesOfSelects_within : ∀ (selects : List Select) (sighted : List Sighted)
    (around : List Place), Within around (columnUsesOfSelects sighted around selects)
  | [], _, around => within_nil around
  | select :: rest, sighted, around =>
      (columnUsesOfSelect_within select sighted around).append
        (columnUsesOfSelects_within rest sighted around)

theorem columnUsesOfSelect_within : ∀ (select : Select) (sighted : List Sighted)
    (around : List Place), Within around (columnUsesOfSelect sighted around select)
  | .mk items sources selection groups having, sighted, around => by
      let inner : List Place := ⟨sighted, sources⟩ :: around
      have hsources := columnUsesOfSources_within sources sighted around
      have hjoined := hsources.append (joinedUses_within sources sighted inner).of_cons
      have hitems := hjoined.append (columnUsesOfItems_within items sighted inner).of_cons
      have hselection := hitems.append (columnUsesOfOption_within selection sighted inner).of_cons
      have hgroups := hselection.append (columnUsesOfAll_within [] groups sighted inner).of_cons
      exact hgroups.append (columnUsesOfOption_within having sighted inner).of_cons

theorem columnUsesOfSources_within : ∀ (sources : List Source) (sighted : List Sighted)
    (around : List Place), Within around (columnUsesOfSources sighted around sources)
  | [], _, around => within_nil around
  | source :: rest, sighted, around =>
      (columnUsesOfSource_within source sighted around).append
        (columnUsesOfSources_within rest sighted around)

theorem columnUsesOfSource_within : ∀ (source : Source) (sighted : List Sighted)
    (around : List Place), Within around (columnUsesOfSource sighted around source)
  | .mk relation joins, sighted, around =>
      (columnUsesOfRelation_within relation sighted around).append
        (columnUsesOfJoins_within joins sighted around)

theorem columnUsesOfJoins_within : ∀ (joins : List Join) (sighted : List Sighted)
    (around : List Place), Within around (columnUsesOfJoins sighted around joins)
  | [], _, around => within_nil around
  | .mk relation _ :: rest, sighted, around =>
      (columnUsesOfRelation_within relation sighted around).append
        (columnUsesOfJoins_within rest sighted around)

theorem columnUsesOfRelation_within : ∀ (relation : Relation) (sighted : List Sighted)
    (around : List Place), Within around (columnUsesOfRelation sighted around relation)
  | .table _ _, _, around => within_nil around
  | .derived query _, sighted, around => columnUsesOfQuery_within query sighted around
  | .nested source, sighted, around => columnUsesOfSource_within source sighted around
  | .other _, _, around => within_nil around

theorem joinedUses_within : ∀ (sources : List Source) (sighted : List Sighted)
    (around : List Place), Within around (joinedUses sighted around sources)
  | [], _, around => within_nil around
  | source :: rest, sighted, around =>
      (conditionUses_within source sighted around).append (joinedUses_within rest sighted around)

theorem conditionUses_within : ∀ (source : Source) (sighted : List Sighted)
    (around : List Place), Within around (conditionUses sighted around source)
  | .mk relation joins, sighted, around =>
      (groupUses_within relation sighted around).append (joinUses_within joins sighted around)

theorem joinUses_within : ∀ (joins : List Join) (sighted : List Sighted) (around : List Place),
    Within around (joinUses sighted around joins)
  | [], _, around => within_nil around
  | .mk relation on :: rest, sighted, around =>
      ((groupUses_within relation sighted around).append
        (columnUsesOfOption_within on sighted around)).append (joinUses_within rest sighted around)

theorem groupUses_within : ∀ (relation : Relation) (sighted : List Sighted)
    (around : List Place), Within around (groupUses sighted around relation)
  | .table _ _, _, around => within_nil around
  | .derived _ _, _, around => within_nil around
  | .nested source, sighted, around => conditionUses_within source sighted around
  | .other _, _, around => within_nil around

theorem columnUsesOfItems_within : ∀ (items : List Item) (sighted : List Sighted)
    (around : List Place), Within around (columnUsesOfItems sighted around items)
  | [], _, around => within_nil around
  | .value e _ :: rest, sighted, around =>
      ((ownUses_within [] around e).append (nestedUses_within e sighted around)).append
        (columnUsesOfItems_within rest sighted around)
  | .star :: rest, sighted, around => columnUsesOfItems_within rest sighted around
  | .starOf _ :: rest, sighted, around => columnUsesOfItems_within rest sighted around

theorem columnUsesOfOption_within : ∀ (e : Option Expression) (sighted : List Sighted)
    (around : List Place), Within around (columnUsesOfOption sighted around e)
  | none, _, around => within_nil around
  | some e, sighted, around =>
      (ownUses_within [] around e).append (nestedUses_within e sighted around)

theorem columnUsesOfAll_within (aliases : List Text) : ∀ (es : List Expression)
    (sighted : List Sighted) (around : List Place),
    Within around (columnUsesOfAll aliases sighted around es)
  | [], _, around => within_nil around
  | e :: rest, sighted, around =>
      ((ownUses_within aliases around e).append (nestedUses_within e sighted around)).append
        (columnUsesOfAll_within aliases rest sighted around)

theorem nestedUses_within : ∀ (e : Expression) (sighted : List Sighted) (around : List Place),
    Within around (nestedUses sighted around e)
  | .column _, _, around => within_nil around
  | .subquery query, sighted, around => columnUsesOfQuery_within query sighted around
  | .all parts, sighted, around => nestedUsesOfAll_within parts sighted around
  | .literal, _, around => within_nil around

theorem nestedUsesOfAll_within : ∀ (es : List Expression) (sighted : List Sighted)
    (around : List Place), Within around (nestedUsesOfAll sighted around es)
  | [], _, around => within_nil around
  | e :: rest, sighted, around =>
      (nestedUses_within e sighted around).append (nestedUsesOfAll_within rest sighted around)

end

/-- The `FROM` list of a `SELECT` is around every column that the `SELECT` names and the queries
nested in its expressions, all but those in the derived tables of the list. -/
theorem columnUsesOfSelect_append (sighted : List Sighted) (around : List Place) (select : Select) :
    ∃ own, columnUsesOfSelect sighted around select =
        columnUsesOfSources sighted around select.sources ++ own ∧
      Within (⟨sighted, select.sources⟩ :: around) own := by
  obtain ⟨items, sources, selection, groups, having⟩ := select
  let inner : List Place := ⟨sighted, sources⟩ :: around
  have hjoined := joinedUses_within sources sighted inner
  have hitems := hjoined.append (columnUsesOfItems_within items sighted inner)
  have hselection := hitems.append (columnUsesOfOption_within selection sighted inner)
  have hgroups := hselection.append (columnUsesOfAll_within [] groups sighted inner)
  refine ⟨_, ?_, hgroups.append (columnUsesOfOption_within having sighted inner)⟩
  simp only [columnUsesOfSelect, List.append_assoc]
  rfl

end Validation

end SqlInsight
