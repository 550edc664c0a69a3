/-
What the names in a statement stand for under lexical scoping, and what comes of it for qualified
columns. A check has the same names in sight in every place, some of them perhaps with other
columns. It goes by the right ones wherever no star on the way to them takes columns from a table
that has the name of a common table expression declared around it.
-/
import SqlInsight.Proofs.Validation.LexicalColumns
import SqlInsight.Validation
import SqlInsight.Reading.Standard

namespace SqlInsight.Validation

open Outline

/-- Whether a table name means a common table expression when this is the last one in sight. -/
def isMeant (name : TableName) (cte : Cte) : Bool :=
  name.schema.isNone && cte.name.sameAscii name.name

/-- The columns of what a table name means do not hang on the name of a table that a star takes
columns from, where this is also the name of a common table expression declared around it. -/
def Clear : List Sighted → TableName → Prop
  | [], _ => True
  | .inside cte :: outer, name => isMeant name cte = true ∨ Clear outer name
  | .behind cte :: outer, name =>
      if isMeant name cte then
        cte.columns ≠ [] ∨
          ∀ use ∈ starUses [cte.name] cte.query, Unshadowed use ∧ Clear outer use.table
      else Clear outer name

/-- A common table expression of which the columns are clear. -/
def ClearCte (sighted : List Sighted) (cte : Cte) : Prop :=
  cte.columns ≠ [] ∨
    ∀ use ∈ starUses [cte.name] cte.query, Unshadowed use ∧ Clear sighted use.table

def ClearRelation (sighted : List Sighted) : Relation → Prop
  | .table name _ => Clear sighted name
  | .derived query _ => ∀ use ∈ starUses [] query, Unshadowed use ∧ Clear sighted use.table
  | .nested _ | .other _ => True

/-- The names in sight in a place under lexical scoping. -/
def Place.lexicalNames (schema : Schema) (p : Place) : Names :=
  Names.along CteColumns.ofLexical schema p.sighted

/-- What a relation that is no group stands for under lexical scoping. -/
def Names.lexicallyStandsFor (n : Names) : Relation → Meaning
  | .table name _ => (n.meaning? name).getD .unknown
  | .derived query alias? =>
      match lexicalColumns? n query with
      | some columns => .derived (alias?.getD []) columns
      | none => .unknown
  | .nested _ | .other _ => .unknown

/-- The relation that a qualifier means, and its place: the last one that bears the name in the
innermost list where one does. -/
def meant? (around : List Place) (qualifier : Text) : Option (Place × Relation) :=
  around.findSome? fun p =>
    ((relationsOfSources p.sources).reverse.find? fun r =>
      (relationKey r).sameAscii qualifier).map (p, ·)

/-- A common table expression comes into sight with its columns under lexical scoping, if it lists
them or if its stars take columns only from tables that mean the same. -/
theorem ofLexical_eq {n n' : Names} {cte : Cte} (h : cte.columns ≠ [] ∨
    ∀ use ∈ starUses [cte.name] cte.query, SameTable n n' use) :
    CteColumns.ofLexical n' cte = CteColumns.ofDeclared n cte := by
  obtain ⟨name, columns, query⟩ := cte
  simp only [CteColumns.ofLexical, CteColumns.ofDeclared, CteColumns.ofListed, Cte.name,
    Cte.columns, Cte.query]
  cases columns with
  | cons first rest => rfl
  | nil =>
      have huses := h.resolve_left (fun hne => hne rfl)
      have hcolumns := lexicalColumns?_eq query [⟨name, none⟩] huses
      exact congrArg (CteColumns.mk name) hcolumns

theorem tableColumns?_congr {n n' : Names} (hschema : n'.schema = n.schema) {name : TableName}
    (h : n'.cte? name = n.cte? name) : n'.tableColumns? name = n.tableColumns? name := by
  rw [Names.tableColumns?, h, hschema, Names.tableColumns?]

theorem meaning?_congr {n n' : Names} (hschema : n'.schema = n.schema) {name : TableName}
    (h : n'.cte? name = n.cte? name) : n'.meaning? name = n.meaning? name := by
  rw [Names.meaning?, h, hschema, Names.meaning?]

theorem cte?_cons {n : Names} {c : CteColumns} {cte : Cte} (hname : c.name = cte.name)
    (name : TableName) : ({ n with ctes := c :: n.ctes } : Names).cte? name =
      if isMeant name cte then some c else n.cte? name := by
  unfold Names.cte? isMeant
  cases name.schema with
  | some _ => rfl
  | none =>
      simp only [List.find?_cons, hname]
      cases cte.name.sameAscii name.name <;> rfl

theorem schema_lexical (schema : Schema) (sighted : List Sighted) :
    (Names.along CteColumns.ofLexical schema sighted).schema =
      (Names.along CteColumns.ofDeclared schema sighted).schema := by
  rw [Names.schema_along, Names.schema_along]

/-- A table name whose columns are clear means the same in a check as under lexical scoping. -/
theorem cte?_lexical (schema : Schema) : ∀ (sighted : List Sighted) {name : TableName},
    Clear sighted name → (Names.along CteColumns.ofLexical schema sighted).cte? name =
      (Names.along CteColumns.ofDeclared schema sighted).cte? name
  | [], _, _ => rfl
  | .inside cte :: outer, name, h => by
      have hname : (CteColumns.ofListed cte).name = cte.name := rfl
      rw [Names.along, Names.along, cte?_cons hname, cte?_cons hname]
      split
      · rfl
      · rename_i hmeant
        exact cte?_lexical schema outer (h.resolve_left hmeant)
  | .behind cte :: outer, name, h => by
      have hlexical (n : Names) : (CteColumns.ofLexical n cte).name = cte.name := rfl
      have hdeclared (n : Names) : (CteColumns.ofDeclared n cte).name = cte.name := rfl
      rw [Names.along, Names.along, cte?_cons (hlexical _), cte?_cons (hdeclared _)]
      rw [Clear] at h
      split
      · rename_i hmeant
        rw [if_pos hmeant] at h
        refine congrArg some (ofLexical_eq (h.imp_right ?_))
        intro huses use huse
        obtain ⟨hunshadowed, hclear⟩ := huses use huse
        exact ⟨hunshadowed, tableColumns?_congr (schema_lexical schema outer)
          (cte?_lexical schema outer hclear)⟩
      · rename_i hmeant
        rw [if_neg hmeant] at h
        exact cte?_lexical schema outer h

section

variable {s : Settings} {schema : Schema}

/-- Tables whose columns are clear mean the same in a check as under lexical scoping. -/
theorem sameTable_lexical {sighted : List Sighted} {uses : List TableUse}
    (h : ∀ use ∈ uses, Unshadowed use ∧ Clear sighted use.table) :
    ∀ use ∈ uses, SameTable (Names.along CteColumns.ofDeclared schema sighted)
      (Names.along CteColumns.ofLexical schema sighted) use := by
  intro use huse
  obtain ⟨hunshadowed, hclear⟩ := h use huse
  exact ⟨hunshadowed, tableColumns?_congr (schema_lexical schema sighted)
    (cte?_lexical schema sighted hclear)⟩

/-- Where its tables are clear, a check knows the columns of a derived table. -/
theorem queryColumns?_lexical {p : Place} {query : Query} {alias? : Option Text}
    (h : ClearRelation p.sighted (.derived query alias?)) :
    lexicalColumns? (p.lexicalNames schema) query = queryColumns? (p.names schema) query :=
  lexicalColumns?_eq query [] (sameTable_lexical h)

/-- A relation whose columns are clear stands for the same in a check as under lexical scoping. -/
theorem standsFor_lexical {p : Place} {r : Relation} (h : ClearRelation p.sighted r) :
    (p.lexicalNames schema).lexicallyStandsFor r = (p.names schema).standsFor r := by
  cases r with
  | table name alias? =>
      have hmeaning := meaning?_congr (schema_lexical schema p.sighted)
        (cte?_lexical schema p.sighted h)
      exact congrArg (Option.getD · .unknown) hmeaning
  | derived query alias? =>
      rw [Names.lexicallyStandsFor, queryColumns?_lexical h]
      rfl
  | nested source => rfl
  | other alias? => rfl

/-- What a qualifier is bound to is what the relation that it means stands for. -/
theorem lookup?_eq (schema : Schema) (around : List Place) (qualifier : Text) :
    Scope.lookup? (around.map (Place.scope schema)) qualifier =
      (meant? around qualifier).map fun x =>
        ⟨relationKey x.2, (x.1.names schema).standsFor x.2⟩ := by
  induction around with
  | nil => rfl
  | cons p rest ih =>
      have hscope : (p.scope schema).reverse.find? (fun b => b.key.sameAscii qualifier) =
          (((relationsOfSources p.sources).reverse.find? fun r =>
            (relationKey r).sameAscii qualifier).map (p, ·)).map fun x =>
              ⟨relationKey x.2, (x.1.names schema).standsFor x.2⟩ := by
        rw [Place.scope, scopeOfSources_eq, ← List.map_reverse, List.find?_map, Option.map_map]
        rfl
      rw [Scope.lookup?, meant?] at ih ⊢
      rw [List.map_cons, List.findSome?_cons, hscope, ih, List.findSome?_cons]
      cases (relationsOfSources p.sources).reverse.find? fun r =>
        (relationKey r).sameAscii qualifier <;> rfl

/-- A qualified column is found missing exactly if the relation that its qualifier means is one of
known columns without it. -/
theorem findings_qualified {around : List Place} {qualifier name : Text} {p : Place} {r : Relation}
    (hmeant : meant? around qualifier = some (p, r)) :
    ColumnUse.findings s schema ⟨around, ⟨some qualifier, name⟩⟩ = [] ↔
      ((p.names schema).standsFor r).hasColumn? name ≠ some false := by
  have hlookup := lookup?_eq schema around qualifier
  rw [hmeant] at hlookup
  simp only [ColumnUse.findings, Checker.checkColumn, Checker.checkQualified, hlookup,
    Option.map_some]
  split <;> simp_all [Checker.report]

end

/-- A common table expression or a derived table whose columns are clear has in a check the columns
that its query has under lexical scoping, however common table expressions are nested. What is found
about columns in a statement comes from those it lists of its target and from those it names, one by
one; and of those, a qualified column whose qualifier means a relation with clear columns is found
missing exactly if the relation does not have it under lexical scoping. -/
theorem columns_lexical (s : Settings) (schema : Schema) :
    (∀ (sighted : List Sighted) (cte : Cte), ClearCte sighted cte →
      CteColumns.ofDeclared (Names.along CteColumns.ofDeclared schema sighted) cte =
        CteColumns.ofLexical (Names.along CteColumns.ofLexical schema sighted) cte) ∧
    (∀ (p : Place) (r : Relation), ClearRelation p.sighted r →
      (p.names schema).standsFor r = (p.lexicalNames schema).lexicallyStandsFor r) ∧
    ∀ (t : Text) (st : Statement),
      (statementFindings s schema st t).filter (·.code.isAboutColumn) =
        targetFindings s schema t st ++ (columnUses t st).flatMap (ColumnUse.findings s schema) ∧
      ∀ use ∈ columnUses t st, ∀ (qualifier : Text) (p : Place) (r : Relation),
        use.column.qualifier = some qualifier → meant? use.around qualifier = some (p, r) →
        ClearRelation p.sighted r →
        (use.findings s schema = [] ↔
          ((p.lexicalNames schema).lexicallyStandsFor r).hasColumn? use.column.name ≠
            some false) := by
  refine ⟨?_, fun p r h => (standsFor_lexical h).symm, ?_⟩
  · intro sighted cte h
    exact (ofLexical_eq (h.imp_right sameTable_lexical)).symm
  · intro t st
    refine ⟨columns_statementFindings s schema t st, ?_⟩
    rintro ⟨around, ⟨_, name⟩⟩ _ qualifier p r hqualifier hmeant hclear
    obtain rfl := hqualifier
    rw [standsFor_lexical hclear]
    exact findings_qualified hmeant

/-- A common table expression whose star takes the columns of a table, beside one of its own that
has another name. -/
theorem columns_lexical_of_star :
    let own : Query := .mk [] [.mk [.value .literal (some "a".toList)] [] none [] none] []
    let cte : Cte := .mk "x".toList [] (.mk [.mk "y".toList [] own]
      [.mk [.star] [.mk (.table ⟨none, "Users".toList⟩ none) []] none [] none] [])
    ClearCte [] cte ∧
      CteColumns.ofLexical ⟨plainShop, []⟩ cte = ⟨"x".toList, some ["Id".toList]⟩ := by
  intro own cte
  have hclear : ClearCte [] cte := by
    refine Or.inr fun use huse => ?_
    obtain rfl : use = ⟨["y".toList, "x".toList], ⟨none, "Users".toList⟩⟩ :=
      List.mem_singleton.mp huse
    exact ⟨fun _ => by decide, trivial⟩
  refine ⟨hclear, ?_⟩
  have hcolumns :
      CteColumns.ofDeclared ⟨plainShop, []⟩ cte = CteColumns.ofLexical ⟨plainShop, []⟩ cte :=
    (columns_lexical {} plainShop).1 [] cte hclear
  rw [← hcolumns]
  decide +kernel

/-- The query of a common table expression takes its columns from one of its own, which has the name
of a table of the snapshot. Under lexical scoping it has the column `a`; a check gives it the
columns of the table, and reports that `a` is missing. -/
theorem columns_of_shadowed_star :
    let own : Query := .mk [] [.mk [.value .literal (some "a".toList)] [] none [] none] []
    let shadowing : Query :=
      .mk [.mk "Users".toList [] own]
        [.mk [.star] [.mk (.table ⟨none, "Users".toList⟩ none) []] none [] none] []
    lexicalColumns? ⟨plainShop, []⟩ shadowing = some ["a".toList] ∧
      queryColumns? ⟨plainShop, []⟩ shadowing = some ["Id".toList] ∧
      (validate ⟨standardParser, {}⟩ (some plainShop)
        ("WITH x AS (WITH Users AS (SELECT 1 AS a) SELECT * FROM Users) " ++
          "SELECT x.a FROM x").toList).map (fun d => (d.code, d.message)) =
        [(.columnNotFound, "Column 'a' not found in 'x'. Did you mean 'Id'?".toList)] := by
  intro own shadowing
  exact ⟨by decide +kernel, by decide +kernel, by decide +kernel⟩

end SqlInsight.Validation
