/-
The columns of a query under lexical scoping, beside those that a check gives to it. A check works
them out where the common table expressions of the query have gone out of sight again; that makes no
difference as long as no star takes its columns from a table which has the name of one of these.
-/
import SqlInsight.Proofs.Validation.ColumnFindings

namespace SqlInsight.Validation

open Outline

mutual

/-- The columns of a query under lexical scoping: those of its first `SELECT`, which has the common
table expressions of the query in sight. -/
def lexicalColumns? (n : Names) : Query → Option (List Text)
  | .mk ctes selects _ => lexicalFirst? (lexicallyBehind n ctes) selects

/-- The names in sight behind common table expressions, each with its columns under lexical scoping.
The query of one sees it with the columns that it lists. -/
def lexicallyBehind (n : Names) : List Cte → Names
  | [] => n
  | .mk name columns query :: rest =>
      let own := CteColumns.ofListed (.mk name columns query)
      let inner : Names := { n with ctes := own :: n.ctes }
      let cte : CteColumns := ⟨name, own.columns.or (lexicalColumns? inner query)⟩
      lexicallyBehind { n with ctes := cte :: n.ctes } rest

/-- The columns of the first of some `SELECT`s. -/
def lexicalFirst? (n : Names) : List Select → Option (List Text)
  | [] => none
  | .mk items sources _ _ _ :: _ =>
      (items.mapM (itemColumns? (lexicalOfSources n sources))).map List.flatten

def lexicalOfSources (n : Names) : List Source → List KeyedColumns
  | [] => []
  | s :: rest => lexicalOfSource n s ++ lexicalOfSources n rest

def lexicalOfSource (n : Names) : Source → List KeyedColumns
  | .mk relation joins => lexicalOfRelation n relation :: lexicalOfJoins n joins

/-- The relations of some joins. -/
def lexicalOfJoins (n : Names) : List Join → List KeyedColumns
  | [] => []
  | .mk relation _ :: rest => lexicalOfRelation n relation :: lexicalOfJoins n rest

def lexicalOfRelation (n : Names) : Relation → KeyedColumns
  | .table name alias? => ⟨alias?.getD name.name, n.tableColumns? name⟩
  | .derived query alias? => ⟨alias?.getD [], lexicalColumns? n query⟩
  | .nested source => ⟨[], allColumns? (lexicalOfSource n source)⟩
  | .other alias? => ⟨alias?.getD [], none⟩

end

/-- A common table expression as it comes into sight under lexical scoping. -/
def CteColumns.ofLexical (n : Names) (c : Cte) : CteColumns :=
  let own := CteColumns.ofListed c
  ⟨c.name, own.columns.or (lexicalColumns? { n with ctes := own :: n.ctes } c.query)⟩

theorem lexicallyBehind_cons (n : Names) (c : Cte) (rest : List Cte) :
    lexicallyBehind n (c :: rest) =
      lexicallyBehind { n with ctes := CteColumns.ofLexical n c :: n.ctes } rest := by
  cases c
  rfl

/-- A relation of a `FROM` list: the name its columns are qualified by, and the tables that they are
taken from. -/
structure KeyedUses where
  key : Text
  uses : List TableUse

/-- The tables from which an item of a `SELECT` list takes columns, which only a star does. -/
def itemUses (relations : List KeyedUses) : Item → List TableUse
  | .star => relations.flatMap KeyedUses.uses
  | .starOf qualifier =>
      (relations.find? fun r => r.key.sameAscii qualifier).elim [] KeyedUses.uses
  | .value _ _ => []

mutual

/-- The tables from which the stars of a query take columns, each with the names of the common table
expressions that are declared around it, the last one first. -/
def starUses (declared : List Text) : Query → List TableUse
  | .mk ctes selects _ => starUsesOfFirst (visibleBehind declared ctes) selects

/-- The tables from which the stars of the first of some `SELECT`s take columns. -/
def starUsesOfFirst (declared : List Text) : List Select → List TableUse
  | [] => []
  | .mk items sources _ _ _ :: _ => items.flatMap (itemUses (keyedUsesOfSources declared sources))

def keyedUsesOfSources (declared : List Text) : List Source → List KeyedUses
  | [] => []
  | s :: rest => keyedUsesOfSource declared s ++ keyedUsesOfSources declared rest

def keyedUsesOfSource (declared : List Text) : Source → List KeyedUses
  | .mk relation joins => keyedUsesOfRelation declared relation :: keyedUsesOfJoins declared joins

/-- The relations of some joins. -/
def keyedUsesOfJoins (declared : List Text) : List Join → List KeyedUses
  | [] => []
  | .mk relation _ :: rest =>
      keyedUsesOfRelation declared relation :: keyedUsesOfJoins declared rest

def keyedUsesOfRelation (declared : List Text) : Relation → KeyedUses
  | .table name alias? => ⟨alias?.getD name.name, [⟨declared, name⟩]⟩
  | .derived query alias? => ⟨alias?.getD [], starUses declared query⟩
  | .nested source => ⟨[], (keyedUsesOfSource declared source).flatMap KeyedUses.uses⟩
  | .other alias? => ⟨alias?.getD [], []⟩

end

/-- No common table expression that is declared around a table has its name. -/
def Unshadowed (use : TableUse) : Prop :=
  use.table.schema = none → ∀ cte ∈ use.visible, cte.sameAscii use.table.name = false

namespace Names

/-- The names with more common table expressions in sight. -/
def declaring (n : Names) (declared : List CteColumns) : Names :=
  { n with ctes := declared ++ n.ctes }

/-- What is declared makes no difference to a table that has none of the names. -/
theorem tableColumns?_declaring (n : Names) (declared : List CteColumns) {name : TableName}
    (h : Unshadowed ⟨declared.map CteColumns.name, name⟩) :
    (n.declaring declared).tableColumns? name = n.tableColumns? name := by
  have hcte : (n.declaring declared).cte? name = n.cte? name := by
    unfold cte?
    split
    · rfl
    · rename_i hname
      have hnone : (declared.find? fun cte => cte.name.sameAscii name.name) = none := by
        rw [List.find?_eq_none]
        intro cte hcte
        rw [h hname cte.name (List.mem_map_of_mem hcte)]
        exact Bool.false_ne_true
      rw [declaring, List.find?_append, hnone, Option.none_or]
  rw [tableColumns?, hcte]
  rfl

theorem exists_lexicallyBehind (n : Names) (ctes : List Cte) (declared : List CteColumns) :
    ∃ more, lexicallyBehind (n.declaring declared) ctes = n.declaring more ∧
      more.map CteColumns.name = visibleBehind (declared.map CteColumns.name) ctes := by
  induction ctes generalizing declared with
  | nil => exact ⟨declared, rfl, rfl⟩
  | cons c rest ih =>
      obtain ⟨more, hmore, hnames⟩ := ih (CteColumns.ofLexical (n.declaring declared) c :: declared)
      refine ⟨more, ?_, ?_⟩
      · rw [lexicallyBehind_cons]
        exact hmore
      · rw [hnames]
        simp [visibleBehind, CteColumns.ofLexical]

end Names

/-- Relations as two ways of looking at them give their columns, which are the same for a relation
if all tables that these are taken from are `Good`. -/
inductive Alike (Good : TableUse → Prop) :
    List KeyedUses → List KeyedColumns → List KeyedColumns → Prop where
  | nil : Alike Good [] [] []
  | cons {u : KeyedUses} {k k' : KeyedColumns} {us : List KeyedUses} {ks ks' : List KeyedColumns}
      (key : k.key = u.key) (key' : k'.key = u.key)
      (columns : (∀ use ∈ u.uses, Good use) → k'.columns = k.columns)
      (rest : Alike Good us ks ks') :
      Alike Good (u :: us) (k :: ks) (k' :: ks')

namespace Alike

variable {Good : TableUse → Prop} {us : List KeyedUses} {ks ks' : List KeyedColumns}

theorem append {vs : List KeyedUses} {ls ls' : List KeyedColumns} (h : Alike Good us ks ks')
    (h' : Alike Good vs ls ls') : Alike Good (us ++ vs) (ks ++ ls) (ks' ++ ls') := by
  induction h with
  | nil => exact h'
  | cons key key' columns _ ih => exact .cons key key' columns ih

theorem allColumns?_eq (h : Alike Good us ks ks')
    (hgood : ∀ use ∈ us.flatMap KeyedUses.uses, Good use) : allColumns? ks' = allColumns? ks := by
  have hmap : ks'.mapM KeyedColumns.columns = ks.mapM KeyedColumns.columns := by
    induction h with
    | nil => rfl
    | cons _ _ columns _ ih =>
        rw [List.flatMap_cons, List.forall_mem_append] at hgood
        rw [List.mapM_cons, List.mapM_cons, columns hgood.1, ih hgood.2]
  rw [allColumns?, hmap, allColumns?]

theorem itemColumns?_eq (h : Alike Good us ks ks') {item : Item}
    (hgood : ∀ use ∈ itemUses us item, Good use) :
    itemColumns? ks' item = itemColumns? ks item := by
  cases item with
  | star => exact h.allColumns?_eq hgood
  | value e alias? => rfl
  | starOf qualifier =>
      simp only [itemColumns?]
      induction h with
      | nil => rfl
      | @cons u k k' us ks ks' key key' columns _ ih =>
          rw [itemUses, List.find?_cons] at hgood
          rw [List.find?_cons, List.find?_cons, key, key']
          cases hkey : u.key.sameAscii qualifier with
          | true =>
              rw [hkey] at hgood
              exact columns hgood
          | false =>
              rw [hkey] at hgood
              exact ih hgood

theorem items_eq (h : Alike Good us ks ks') {items : List Item}
    (hgood : ∀ use ∈ items.flatMap (itemUses us), Good use) :
    items.mapM (itemColumns? ks') = items.mapM (itemColumns? ks) := by
  induction items with
  | nil => rfl
  | cons item rest ih =>
      rw [List.flatMap_cons, List.forall_mem_append] at hgood
      rw [List.mapM_cons, List.mapM_cons, h.itemColumns?_eq hgood.1, ih hgood.2]

end Alike

/-- A table means the same, columns included, among two sets of names, and nothing that is declared
around it has its name. -/
structure SameTable (n n' : Names) (use : TableUse) : Prop where
  unshadowed : Unshadowed use
  columns : n'.tableColumns? use.table = n.tableColumns? use.table

theorem key_keyedOfRelation (n : Names) (declared : List Text) (r : Relation) :
    (keyedOfRelation n r).key = (keyedUsesOfRelation declared r).key := by
  cases r <;> rfl

theorem key_lexicalOfRelation (n : Names) (declared : List Text) (r : Relation) :
    (lexicalOfRelation n r).key = (keyedUsesOfRelation declared r).key := by
  cases r <;> rfl

section

variable {n n' : Names}

mutual

/-- The columns of a query under lexical scoping, if its stars take columns only from tables that
mean the same and that nothing declared on the way shadows. -/
theorem lexicalColumns?_eq : ∀ (q : Query) (declared : List CteColumns),
    (∀ use ∈ starUses (declared.map CteColumns.name) q, SameTable n n' use) →
    lexicalColumns? (n'.declaring declared) q = queryColumns? n q
  | .mk ctes selects _, declared, h => by
      obtain ⟨more, hmore, hnames⟩ := n'.exists_lexicallyBehind ctes declared
      rw [lexicalColumns?, queryColumns?, hmore]
      rw [starUses, ← hnames] at h
      exact lexicalFirst?_eq selects more h

theorem lexicalFirst?_eq : ∀ (selects : List Select) (declared : List CteColumns),
    (∀ use ∈ starUsesOfFirst (declared.map CteColumns.name) selects, SameTable n n' use) →
    lexicalFirst? (n'.declaring declared) selects = firstColumns? n selects
  | [], _, _ => rfl
  | .mk items sources _ _ _ :: _, declared, h => by
      rw [lexicalFirst?, firstColumns?, (alike_sources sources declared).items_eq h]

theorem alike_sources : ∀ (sources : List Source) (declared : List CteColumns),
    Alike (SameTable n n') (keyedUsesOfSources (declared.map CteColumns.name) sources)
      (keyedOfSources n sources) (lexicalOfSources (n'.declaring declared) sources)
  | [], _ => .nil
  | source :: rest, declared => (alike_source source declared).append (alike_sources rest declared)

theorem alike_source : ∀ (source : Source) (declared : List CteColumns),
    Alike (SameTable n n') (keyedUsesOfSource (declared.map CteColumns.name) source)
      (keyedOfSource n source) (lexicalOfSource (n'.declaring declared) source)
  | .mk relation joins, declared => by
      simp only [keyedUsesOfSource, keyedOfSource, lexicalOfSource]
      exact .cons (key_keyedOfRelation _ _ relation) (key_lexicalOfRelation _ _ relation)
        (columns_lexicalOfRelation relation declared) (alike_joins joins declared)

theorem alike_joins : ∀ (joins : List Join) (declared : List CteColumns),
    Alike (SameTable n n') (keyedUsesOfJoins (declared.map CteColumns.name) joins)
      (keyedOfJoins n joins) (lexicalOfJoins (n'.declaring declared) joins)
  | [], _ => .nil
  | .mk relation _ :: rest, declared => by
      simp only [keyedUsesOfJoins, keyedOfJoins, lexicalOfJoins]
      exact .cons (key_keyedOfRelation _ _ relation) (key_lexicalOfRelation _ _ relation)
        (columns_lexicalOfRelation relation declared) (alike_joins rest declared)

theorem columns_lexicalOfRelation : ∀ (r : Relation) (declared : List CteColumns),
    (∀ use ∈ (keyedUsesOfRelation (declared.map CteColumns.name) r).uses, SameTable n n' use) →
    (lexicalOfRelation (n'.declaring declared) r).columns = (keyedOfRelation n r).columns
  | .table name _, declared, h => by
      have hsame := h _ (List.mem_singleton.mpr rfl)
      simp only [lexicalOfRelation, keyedOfRelation]
      rw [n'.tableColumns?_declaring declared hsame.unshadowed, hsame.columns]
  | .derived query _, declared, h => lexicalColumns?_eq query declared h
  | .nested source, declared, h => (alike_source source declared).allColumns?_eq h
  | .other _, _, _ => rfl

end

end

end SqlInsight.Validation
