/-
Snapshots that agree up to the case of ASCII letters in the names of schemas, tables and columns.
Every lookup that finds something in the one finds in the other what is at the same place there, so
that a name stands for the same, a query has the same columns and the same candidate is nearest,
each up to case again.
-/
import SqlInsight.Proofs.Related
import SqlInsight.Proofs.Text.CaseFold
import SqlInsight.Spelling
import SqlInsight.Validation.Names

namespace SqlInsight

open Outline (TableName)

/-- Two texts that are equal up to the case of ASCII letters. -/
def Text.Recased (a b : Text) : Prop :=
  a.asciiLower = b.asciiLower

namespace Text.Recased

variable {a a' b b' : Text}

instance (a b : Text) : Decidable (a.Recased b) :=
  inferInstanceAs (Decidable (a.asciiLower = b.asciiLower))

theorem refl (a : Text) : a.Recased a := rfl

theorem sameAscii (h : a.Recased b) (name : Text) : b.sameAscii name = a.sameAscii name := by
  have hlower : a.asciiLower = b.asciiLower := h
  rw [Text.sameAscii, Text.sameAscii, hlower]

theorem lower (h : a.Recased b) : b.lower = a.lower :=
  (lower_eq_of_sameAscii (beq_iff_eq.mpr h)).symm

theorem append (h : a.Recased b) (h' : a'.Recased b') : (a ++ a').Recased (b ++ b') := by
  have hlower : a.asciiLower = b.asciiLower := h
  have hlower' : a'.asciiLower = b'.asciiLower := h'
  rw [Recased, asciiLower, asciiLower, List.map_append, List.map_append]
  exact congrArg₂ (· ++ ·) hlower hlower'

theorem between (h : a.Recased b) (before after : Text) :
    (before ++ a ++ after).Recased (before ++ b ++ after) :=
  ((refl before).append h).append (refl after)

theorem intercalate (separator : Text) {as bs : List Text} (h : List.Forall₂ Recased as bs) :
    Recased (List.intercalate separator as) (List.intercalate separator bs) := by
  rw [List.intercalate, List.intercalate]
  induction h with
  | nil => exact refl []
  | cons hfirst hrest ih =>
      cases hrest with
      | nil => exact hfirst.append (refl [])
      | cons hsecond hmore => exact hfirst.append ((refl separator).append ih)

end Text.Recased

namespace Spelling

/-- The best candidate so far in two lists: equally near, and the same up to case. -/
def Best : Option (Nat × Text) → Option (Nat × Text) → Prop :=
  Option.Rel fun best best' => best'.1 = best.1 ∧ best.2.Recased best'.2

theorem better_recased {name : Text} {most : Nat} {best best' : Option (Nat × Text)}
    {candidate candidate' : Text} (hbest : Best best best')
    (h : candidate.Recased candidate') :
    Best (better name most best candidate) (better name most best' candidate') := by
  unfold better
  simp only [h.lower]
  split
  · exact hbest
  · cases hbest with
    | none => exact .some ⟨rfl, h⟩
    | @some b b' hb =>
        simp only [hb.1]
        split
        · exact .some ⟨rfl, h⟩
        · exact .some hb

/-- Of candidates in another case the same one is nearest. -/
theorem nearest?_recased {candidates candidates' : List Text}
    (h : List.Forall₂ Text.Recased candidates candidates') (name : Text) (most : Nat) :
    Option.Rel Text.Recased (nearest? name candidates most) (nearest? name candidates' most) := by
  have hbest : Best (candidates.foldl (better name.lower most) none)
      (candidates'.foldl (better name.lower most) none) := by
    refine List.rel_foldl (P := Best) (R := Text.Recased) ?_ .none h
    exact fun _ _ hbest _ _ hcandidate => better_recased hbest hcandidate
  exact hbest.map fun _ _ hb => hb.2

end Spelling

namespace Schema

/-- Columns at the same place whose names are equal up to case. -/
structure Column.Recased (c c' : Column) : Prop where
  name : c.name.Recased c'.name
  ordinal : c'.ordinal = c.ordinal

/-- Tables whose names, with those of their schemas and columns, are equal up to case. -/
structure Table.Recased (t t' : Table) : Prop where
  schema : t.schema.Recased t'.schema
  name : t.name.Recased t'.name
  columns : List.Forall₂ Column.Recased t.columns t'.columns

/-- Snapshots whose tables are equal up to case in the names of schemas, tables and columns.
Whatever else they hold may differ. -/
def Recased (s s' : Schema) : Prop :=
  List.Forall₂ Table.Recased s.tables s'.tables

section Tables

variable {t t' : Table}

theorem Table.Recased.column? (h : t.Recased t') (name : Text) :
    Option.Rel Column.Recased (t.column? name) (t'.column? name) :=
  h.columns.find? fun _ _ hc => hc.name.sameAscii name

theorem Table.Recased.columnNames (h : t.Recased t') :
    List.Forall₂ Text.Recased t.columnNames t'.columnNames := by
  have hsorted : List.Forall₂ Column.Recased
      (t.columns.mergeSort fun a b => a.ordinal ≤ b.ordinal)
      (t'.columns.mergeSort fun a b => a.ordinal ≤ b.ordinal) :=
    h.columns.mergeSort fun a a' b b' hc hc' => by rw [hc.ordinal, hc'.ordinal]
  exact List.rel_map (fun _ _ hc => hc.name) hsorted

theorem Table.Recased.qualifiedName (h : t.Recased t') :
    t.qualifiedName.Recased t'.qualifiedName :=
  h.schema.append ((Text.Recased.refl ['.']).append h.name)

end Tables

section Snapshots

variable {s s' : Schema}

theorem Recased.tablesNamed (h : s.Recased s') (name : Text) :
    List.Forall₂ Table.Recased (s.tablesNamed name) (s'.tablesNamed name) :=
  h.filter fun _ _ ht => ht.name.sameAscii name

theorem Recased.table? (h : s.Recased s') (schema : Option Text) (name : Text) :
    Option.Rel Table.Recased (s.table? schema name) (s'.table? schema name) := by
  have hnamed := h.tablesNamed name
  have hin (schema : Text) := hnamed.find? fun t t' ht => ht.schema.sameAscii schema
  cases schema with
  | some schema => exact hin schema
  | none => exact (hin defaultSchema).or hnamed.head?

theorem Recased.tablesIn (h : s.Recased s') (schema : Text) :
    List.Forall₂ Table.Recased (s.tablesIn schema) (s'.tablesIn schema) :=
  h.filter fun _ _ ht => ht.schema.sameAscii schema

end Snapshots

end Schema

namespace Validation

/-- Meanings that are equal up to case in the names that come from the snapshot. -/
inductive Meaning.Recased : Meaning → Meaning → Prop
  | table {t t' : Schema.Table} (h : t.Recased t') : Recased (.table t) (.table t')
  | derived (name : Text) {columns columns' : List Text}
      (h : List.Forall₂ Text.Recased columns columns') :
      Recased (.derived name columns) (.derived name columns')
  | unknown : Recased .unknown .unknown

namespace Meaning.Recased

variable {m m' : Meaning}

theorem hasColumn? (h : m.Recased m') (column : Text) :
    m'.hasColumn? column = m.hasColumn? column := by
  cases h with
  | table h => rw [Meaning.hasColumn?, Meaning.hasColumn?, (h.column? column).isSome]
  | derived name h =>
      rw [Meaning.hasColumn?, Meaning.hasColumn?, h.any fun _ _ hc => hc.sameAscii column]
  | unknown => rfl

theorem isUnknown (h : m.Recased m') : (m' == .unknown) = (m == .unknown) := by
  cases h <;> rfl

theorem label (h : m.Recased m') : m.label.Recased m'.label := by
  cases h with
  | table h => exact h.qualifiedName
  | derived name h => exact .refl name
  | unknown => exact .refl []

theorem columnNames (h : m.Recased m') :
    List.Forall₂ Text.Recased m.columnNames m'.columnNames := by
  cases h with
  | table h => exact h.columnNames
  | derived name h => exact h
  | unknown => exact .nil

theorem table? (h : m.Recased m') : Option.Rel Schema.Table.Recased m.table? m'.table? := by
  cases h with
  | table h => exact .some h
  | derived name h => exact .none
  | unknown => exact .none

end Meaning.Recased

/-- Bindings of the same name to meanings that are equal up to case. -/
structure Bound.Recased (b b' : Bound) : Prop where
  key : b'.key = b.key
  meaning : b.meaning.Recased b'.meaning

/-- Scopes that bind the same names, one after the other, to meanings equal up to case. -/
abbrev Scope.Recased : Scope → Scope → Prop :=
  List.Forall₂ Bound.Recased

namespace Scope

/-- What a column comes to, where the labels of what has it are equal up to case. -/
inductive Resolution.Recased : Resolution → Resolution → Prop
  | found : Recased .found .found
  | ambiguous {labels labels' : List Text} (h : List.Forall₂ Text.Recased labels labels') :
      Recased (.ambiguous labels) (.ambiguous labels')
  | missing : Recased .missing .missing

variable {scopes scopes' : List Scope} (h : List.Forall₂ Scope.Recased scopes scopes')

include h

theorem lookup?_recased (key : Text) :
    Option.Rel Bound.Recased (lookup? scopes key) (lookup? scopes' key) := by
  refine h.findSome? fun scope scope' hscope => ?_
  refine (List.rel_reverse hscope).find? fun b b' hb => ?_
  rw [hb.key]

omit h in
theorem isEmpty_recased {scope scope' : Scope} (hscope : scope.Recased scope') :
    List.isEmpty scope' = List.isEmpty scope := by
  cases hscope <;> rfl

theorem columnNames_recased :
    List.Forall₂ Text.Recased (columnNames scopes) (columnNames scopes') := by
  have hfind : Option.Rel Scope.Recased (scopes.find? fun scope => !List.isEmpty scope)
      (scopes'.find? fun scope => !List.isEmpty scope) :=
    h.find? fun scope scope' hscope => by rw [isEmpty_recased hscope]
  rw [columnNames, columnNames]
  generalize List.find? _ scopes = found, List.find? _ scopes' = found' at hfind ⊢
  cases hfind with
  | none => exact .nil
  | some hscope => exact List.rel_flatMap hscope fun _ _ hb => hb.meaning.columnNames

omit h in
theorem resolve?_recased {scope scope' : Scope} (hscope : scope.Recased scope') (column : Text) :
    Option.Rel Resolution.Recased (resolve? scope column) (resolve? scope' column) := by
  have hholders : Scope.Recased (scope.filter fun b => b.meaning.hasColumn? column == some true)
      (scope'.filter fun b => b.meaning.hasColumn? column == some true) :=
    hscope.filter fun b b' hb => by rw [hb.meaning.hasColumn?]
  have hunknown : (scope'.any fun b => b.meaning == .unknown) =
      scope.any fun b => b.meaning == .unknown :=
    hscope.any fun b b' hb => hb.meaning.isUnknown
  rw [resolve?, resolve?, hunknown]
  generalize List.filter _ scope = holders, List.filter _ scope' = holders' at hholders ⊢
  cases hholders with
  | nil =>
      simp only
      split
      · exact .some .found
      · exact .none
  | cons hfirst hrest =>
      cases hrest with
      | nil => exact .some .found
      | cons hsecond hmore =>
          refine .some (.ambiguous ?_)
          exact List.rel_map (fun _ _ hb => hb.meaning.label)
            (.cons hfirst (.cons hsecond hmore))

theorem resolve_recased (column : Text) :
    Resolution.Recased (resolve scopes column) (resolve scopes' column) := by
  have hempty : scopes'.all List.isEmpty = scopes.all List.isEmpty := by
    have hany := h.any (p := fun scope => !List.isEmpty scope)
      (q := fun scope => !List.isEmpty scope) fun scope scope' hscope => by
        rw [isEmpty_recased hscope]
    rw [List.all_eq_not_any_not, List.all_eq_not_any_not, hany]
  have hresolve : Option.Rel Resolution.Recased
      (scopes.findSome? fun scope => resolve? scope column)
      (scopes'.findSome? fun scope => resolve? scope column) :=
    h.findSome? fun _ _ hscope => resolve?_recased hscope column
  rw [resolve, resolve, hempty]
  split
  · exact .found
  · generalize List.findSome? _ scopes = result, List.findSome? _ scopes' = result' at hresolve ⊢
    cases hresolve with
    | none => exact .missing
    | some h => exact h

end Scope

/-- Common table expressions of the same name with columns that are equal up to case. -/
structure CteColumns.Recased (cte cte' : CteColumns) : Prop where
  name : cte'.name = cte.name
  columns : Option.Rel (List.Forall₂ Text.Recased) cte.columns cte'.columns

theorem CteColumns.Recased.meaning {cte cte' : CteColumns} (h : cte.Recased cte') :
    cte.meaning.Recased cte'.meaning := by
  obtain ⟨name, columns⟩ := cte
  obtain ⟨name', columns'⟩ := cte'
  obtain ⟨rfl, hcolumns⟩ := h
  cases hcolumns with
  | none => exact .unknown
  | some hcolumns => exact .derived name' hcolumns

/-- Names that stand for the same up to case. -/
structure Names.Recased (n n' : Names) : Prop where
  schema : n.schema.Recased n'.schema
  ctes : List.Forall₂ CteColumns.Recased n.ctes n'.ctes

section Lookups

variable {n n' : Names} (h : n.Recased n')

include h

theorem Names.Recased.cte? (name : TableName) :
    Option.Rel CteColumns.Recased (n.cte? name) (n'.cte? name) := by
  rw [Names.cte?, Names.cte?]
  cases name.schema with
  | some schema => exact .none
  | none => exact h.ctes.find? fun cte cte' hcte => by rw [hcte.name]

theorem Names.Recased.meaning? (name : TableName) :
    Option.Rel Meaning.Recased (n.meaning? name) (n'.meaning? name) := by
  have hcte := h.cte? name
  have htable := h.schema.table? name.schema name.name
  rw [Names.meaning?, Names.meaning?]
  split
  · exact .some .unknown
  · generalize n.cte? name = cte, n'.cte? name = cte' at hcte ⊢
    cases hcte with
    | some hcte => exact .some hcte.meaning
    | none =>
        generalize n.schema.table? _ _ = table, n'.schema.table? _ _ = table' at htable ⊢
        cases htable with
        | some htable => exact .some (.table htable)
        | none =>
            simp only
            split
            · exact .some .unknown
            · exact .none

theorem Names.Recased.tableColumns? (name : TableName) :
    Option.Rel (List.Forall₂ Text.Recased) (n.tableColumns? name) (n'.tableColumns? name) := by
  have hcte := h.cte? name
  have htable := h.schema.table? name.schema name.name
  rw [Names.tableColumns?, Names.tableColumns?]
  generalize n.cte? name = cte, n'.cte? name = cte' at hcte ⊢
  cases hcte with
  | some hcte => exact hcte.columns
  | none => exact htable.map fun _ _ ht => ht.columnNames

theorem Names.Recased.tableNamesFor (name : TableName) :
    List.Forall₂ Text.Recased (n.tableNamesFor name) (n'.tableNamesFor name) := by
  rw [Names.tableNamesFor, Names.tableNamesFor]
  cases name.schema with
  | some schema => exact List.rel_map (fun _ _ ht => ht.name) (h.schema.tablesIn schema)
  | none => exact List.rel_map (fun _ _ ht => ht.name) h.schema

end Lookups

/-- Relations with the same key and columns that are equal up to case. -/
structure KeyedColumns.Recased (r r' : KeyedColumns) : Prop where
  key : r'.key = r.key
  columns : Option.Rel (List.Forall₂ Text.Recased) r.columns r'.columns

section Columns

variable {relations relations' : List KeyedColumns}
  (h : List.Forall₂ KeyedColumns.Recased relations relations')

include h

theorem allColumns?_recased :
    Option.Rel (List.Forall₂ Text.Recased) (allColumns? relations) (allColumns? relations') :=
  (h.mapM fun _ _ hr => hr.columns).map fun _ _ hlists => List.rel_flatten hlists

theorem itemColumns?_recased (item : Outline.Item) :
    Option.Rel (List.Forall₂ Text.Recased) (itemColumns? relations item)
      (itemColumns? relations' item) := by
  cases item with
  | star => exact allColumns?_recased h
  | starOf qualifier =>
      have hfind := h.find? (p := fun r => r.key.sameAscii qualifier)
        (q := fun r => r.key.sameAscii qualifier) fun r r' hr => by rw [hr.key]
      exact hfind.bind fun _ _ hr => hr.columns
  | value e alias? => exact .some (List.forall₂_same.mpr fun name _ => .refl name)

theorem columns_recased (items : List Outline.Item) :
    Option.Rel (List.Forall₂ Text.Recased)
      ((items.mapM (itemColumns? relations)).map List.flatten)
      ((items.mapM (itemColumns? relations')).map List.flatten) := by
  have hitems : List.Forall₂ (· = ·) items items := List.forall₂_refl items
  have hlists := hitems.mapM (Q := List.Forall₂ Text.Recased) (f := itemColumns? relations)
    (g := itemColumns? relations') fun item _ heq => heq ▸ itemColumns?_recased h item
  exact hlists.map fun _ _ hlists => List.rel_flatten hlists

end Columns

section Queries

variable {n n' : Names}

mutual

theorem queryColumns?_recased (h : n.Recased n') : ∀ q : Outline.Query,
    Option.Rel (List.Forall₂ Text.Recased) (queryColumns? n q) (queryColumns? n' q)
  | .mk _ selects _ => firstColumns?_recased h selects

theorem firstColumns?_recased (h : n.Recased n') : ∀ selects : List Outline.Select,
    Option.Rel (List.Forall₂ Text.Recased) (firstColumns? n selects) (firstColumns? n' selects)
  | [] => .none
  | .mk items sources _ _ _ :: _ => columns_recased (keyedOfSources_recased h sources) items

theorem keyedOfSources_recased (h : n.Recased n') : ∀ sources : List Outline.Source,
    List.Forall₂ KeyedColumns.Recased (keyedOfSources n sources) (keyedOfSources n' sources)
  | [] => .nil
  | source :: rest =>
      List.rel_append (keyedOfSource_recased h source) (keyedOfSources_recased h rest)

theorem keyedOfSource_recased (h : n.Recased n') : ∀ source : Outline.Source,
    List.Forall₂ KeyedColumns.Recased (keyedOfSource n source) (keyedOfSource n' source)
  | .mk relation joins =>
      .cons (keyedOfRelation_recased h relation) (keyedOfJoins_recased h joins)

theorem keyedOfJoins_recased (h : n.Recased n') : ∀ joins : List Outline.Join,
    List.Forall₂ KeyedColumns.Recased (keyedOfJoins n joins) (keyedOfJoins n' joins)
  | [] => .nil
  | .mk relation _ :: rest =>
      .cons (keyedOfRelation_recased h relation) (keyedOfJoins_recased h rest)

theorem keyedOfRelation_recased (h : n.Recased n') : ∀ relation : Outline.Relation,
    (keyedOfRelation n relation).Recased (keyedOfRelation n' relation)
  | .table name _ => ⟨rfl, h.tableColumns? name⟩
  | .derived query _ => ⟨rfl, queryColumns?_recased h query⟩
  | .nested source => ⟨rfl, allColumns?_recased (keyedOfSource_recased h source)⟩
  | .other _ => ⟨rfl, .none⟩

end

theorem derivedMeaning_recased (h : n.Recased n') (q : Outline.Query) (alias? : Option Text) :
    (derivedMeaning n q alias?).Recased (derivedMeaning n' q alias?) := by
  have hcolumns := queryColumns?_recased h q
  rw [derivedMeaning, derivedMeaning]
  generalize queryColumns? n q = columns, queryColumns? n' q = columns' at hcolumns ⊢
  cases hcolumns with
  | none => exact .unknown
  | some hcolumns => exact .derived _ hcolumns

theorem meaning?_getD_recased (h : n.Recased n') (name : TableName) :
    ((n.meaning? name).getD .unknown).Recased ((n'.meaning? name).getD .unknown) := by
  have hmeaning := h.meaning? name
  generalize n.meaning? name = m, n'.meaning? name = m' at hmeaning ⊢
  cases hmeaning with
  | none => exact .unknown
  | some hmeaning => exact hmeaning

mutual

theorem scopeOfSources_recased (h : n.Recased n') : ∀ sources : List Outline.Source,
    Scope.Recased (scopeOfSources n sources) (scopeOfSources n' sources)
  | [] => .nil
  | source :: rest =>
      List.rel_append (scopeOfSource_recased h source) (scopeOfSources_recased h rest)

theorem scopeOfSource_recased (h : n.Recased n') : ∀ source : Outline.Source,
    Scope.Recased (scopeOfSource n source) (scopeOfSource n' source)
  | .mk relation joins =>
      List.rel_append (scopeOfRelation_recased h relation) (scopeOfJoins_recased h joins)

theorem scopeOfJoins_recased (h : n.Recased n') : ∀ joins : List Outline.Join,
    Scope.Recased (scopeOfJoins n joins) (scopeOfJoins n' joins)
  | [] => .nil
  | .mk relation _ :: rest =>
      List.rel_append (scopeOfRelation_recased h relation) (scopeOfJoins_recased h rest)

theorem scopeOfRelation_recased (h : n.Recased n') : ∀ relation : Outline.Relation,
    Scope.Recased (scopeOfRelation n relation) (scopeOfRelation n' relation)
  | .table name _ => .cons ⟨rfl, meaning?_getD_recased h name⟩ .nil
  | .derived query alias? => .cons ⟨rfl, derivedMeaning_recased h query alias?⟩ .nil
  | .nested source => scopeOfSource_recased h source
  | .other _ => .cons ⟨rfl, .unknown⟩ .nil

end

mutual

theorem sourcesResolve_recased (h : n.Recased n') : ∀ sources : List Outline.Source,
    sourcesResolve n' sources = sourcesResolve n sources
  | [] => rfl
  | source :: rest => by
      rw [sourcesResolve, sourcesResolve, sourceResolves_recased h source,
        sourcesResolve_recased h rest]

theorem sourceResolves_recased (h : n.Recased n') : ∀ source : Outline.Source,
    sourceResolves n' source = sourceResolves n source
  | .mk relation joins => by
      rw [sourceResolves, sourceResolves, relationResolves_recased h relation,
        joinsResolve_recased h joins]

theorem joinsResolve_recased (h : n.Recased n') : ∀ joins : List Outline.Join,
    joinsResolve n' joins = joinsResolve n joins
  | [] => rfl
  | .mk relation _ :: rest => by
      rw [joinsResolve, joinsResolve, relationResolves_recased h relation,
        joinsResolve_recased h rest]

theorem relationResolves_recased (h : n.Recased n') : ∀ relation : Outline.Relation,
    relationResolves n' relation = relationResolves n relation
  | .table name _ => (h.meaning? name).isSome
  | .nested source => sourceResolves_recased h source
  | .derived _ _ => rfl
  | .other _ => rfl

end

end Queries

end Validation

end SqlInsight
