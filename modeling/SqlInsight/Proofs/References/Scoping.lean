/-
Which tables a list of statements names. A common table expression is forgotten nowhere on the walk
through them: a name is taken for it wherever it has been met before, also in another query or in
another statement. The tables listed are therefore those of lexical scoping if and only if no table
is named like a common table expression that was met before and is not visible there.
-/
import Mathlib.Data.List.Forall2
import SqlInsight.Proofs.Outline.Uses
import SqlInsight.Proofs.References.Walk

namespace SqlInsight

open Outline

namespace Outline

namespace TableUse

/-- Whether a common table expression of that name is visible. -/
def isCte (use : TableUse) : Bool :=
  use.table.schema.isNone && use.visible.any (·.lower == use.table.name.lower)

/-- The table with its schema, unless it is missing or no table but a common table expression. -/
def physical? (use : TableUse) : Option (Text × Text) :=
  if isPlaceholder use.table.name || use.isCte then none
  else some (use.table.schema.getD defaultSchema, use.table.name)

/-- What a table stands for where it is used: the common table expression of its name if one is
visible, and else the table itself. -/
def StandsFor (use : TableUse) (binding? : Option Binding) : Prop :=
  isPlaceholder use.table.name = false →
    ∃ b, binding? = some b ∧
      if use.isCte then b.kind = .cte ∧ b.table.lower = use.table.name.lower
      else b = Binding.ofTable use.table

/-- The same table where at least as much is visible. -/
structure Widens (use wider : TableUse) : Prop where
  table : wider.table = use.table
  visible : use.visible ⊆ wider.visible

/-- The same table with the same answer to whether it is a common table expression, unless it is
missing. -/
def SameRole (use other : TableUse) : Prop :=
  other.table = use.table ∧ (isPlaceholder use.table.name = false → other.isCte = use.isCte)

variable {use wider : TableUse}

theorem Widens.isCte (h : use.Widens wider) (hcte : use.isCte = true) : wider.isCte = true := by
  rw [TableUse.isCte, Bool.and_eq_true, List.any_eq_true] at hcte ⊢
  obtain ⟨hschema, name, hname, hsame⟩ := hcte
  rw [h.table]
  exact ⟨hschema, name, h.visible hname, hsame⟩

theorem SameRole.physical? (h : use.SameRole wider) : wider.physical? = use.physical? := by
  obtain ⟨htable, hrole⟩ := h
  rw [TableUse.physical?, TableUse.physical?, htable]
  cases hname : isPlaceholder use.table.name
  · rw [hrole hname]
  · rfl

/-- Where more is visible, a table is listed as before or is not listed any more. -/
theorem Widens.physical? (h : use.Widens wider) :
    use.SameRole wider ∨ wider.physical? = none ∧ use.physical?.isSome = true := by
  cases hname : isPlaceholder use.table.name
  · cases hwider : wider.isCte <;> cases huse : use.isCte
    · exact Or.inl ⟨h.table, fun _ => hwider.trans huse.symm⟩
    · rw [h.isCte huse] at hwider
      contradiction
    · refine Or.inr ⟨?_, ?_⟩
      · rw [TableUse.physical?, hwider, Bool.or_true, if_pos rfl]
      · simp [TableUse.physical?, hname, huse]
    · exact Or.inl ⟨h.table, fun _ => hwider.trans huse.symm⟩
  · exact Or.inl ⟨h.table, fun hfalse => by simp [hname] at hfalse⟩

theorem StandsFor.isCte_eq {binding? : Option Binding} (htable : wider.table = use.table)
    (huse : use.StandsFor binding?) (hwider : wider.StandsFor binding?)
    (hname : isPlaceholder use.table.name = false) : wider.isCte = use.isCte := by
  obtain ⟨b, hb, hrole⟩ := huse hname
  obtain ⟨b', hb', hrole'⟩ := hwider (by rw [htable, hname])
  obtain rfl : b = b' := Option.some.inj (hb.symm.trans hb')
  cases hcte : use.isCte <;> cases hcte' : wider.isCte
  · rfl
  · rw [hcte, if_neg Bool.false_ne_true] at hrole
    rw [hcte', if_pos rfl] at hrole'
    have hphysical := Binding.isPhysical_of_kind_cte hrole'.1
    rw [hrole, Binding.isPhysical_ofTable] at hphysical
    contradiction
  · rw [hcte, if_pos rfl] at hrole
    rw [hcte', if_neg Bool.false_ne_true] at hrole'
    have hphysical := Binding.isPhysical_of_kind_cte hrole.1
    rw [hrole', Binding.isPhysical_ofTable] at hphysical
    contradiction
  · rfl

theorem SameRole.standsFor_iff (h : use.SameRole wider) (binding? : Option Binding) :
    wider.StandsFor binding? ↔ use.StandsFor binding? := by
  obtain ⟨htable, hrole⟩ := h
  rw [StandsFor, StandsFor, htable]
  refine forall_congr' fun hname => ?_
  rw [hrole hname]

/-- More visible names leave the role of a table as it is, unless it is listed and has one of
them. -/
theorem sameRole_behind (use : TableUse) (names : List Text) :
    use.SameRole ⟨use.visible ++ names, use.table⟩ ↔
      (use.table.schema = none → use.physical?.isSome = true →
        ∀ name ∈ names, name.lower ≠ use.table.name.lower) := by
  rw [SameRole, TableUse.isCte, TableUse.physical?, TableUse.isCte, List.any_append]
  cases isPlaceholder use.table.name
  · cases use.table.schema with
    | some schema => simp
    | none => cases use.visible.any (·.lower == use.table.name.lower) <;> simp
  · simp

end TableUse

/-- The word that a table that is met goes by: its alias, or else its name. -/
def Visit.word? : Visit → Option Text
  | .relation (.table name alias?) => some (alias?.getD name.name)
  | _ => none

/-- The tables that a walk meets, each with the names of all common table expressions met before. -/
def usesMet (met : List Text) : List Visit → List TableUse
  | [] => []
  | .cte c :: rest => usesMet (c.name :: met) rest
  | .relation (.table name _) :: rest => ⟨met, name⟩ :: usesMet met rest
  | .relation (.derived _ _) :: rest | .relation (.nested _) :: rest
  | .relation (.other _) :: rest | .column _ :: rest | .query _ :: rest => usesMet met rest

theorem visibleBehind_cons (visible : List Text) (c : Cte) (rest : List Cte) :
    visibleBehind visible (c :: rest) = visibleBehind (c.name :: visible) rest := by
  simp [visibleBehind]

theorem subset_visibleBehind (visible : List Text) (ctes : List Cte) :
    visible ⊆ visibleBehind visible ctes :=
  List.subset_append_right _ _

theorem usesMet_append (met : List Text) (first second : List Visit) :
    usesMet met (first ++ second) =
      usesMet met first ++ usesMet (visibleBehind met (ctesMet first)) second := by
  induction first generalizing met with
  | nil => rfl
  | cons v rest ih =>
      cases v with
      | cte c =>
          have hmet : ctesMet (.cte c :: rest) = c :: ctesMet rest := rfl
          rw [List.cons_append, usesMet, usesMet, ih, hmet, visibleBehind_cons]
      | relation relation =>
          cases relation with
          | table name alias? =>
              rw [List.cons_append, usesMet, usesMet, ih]
              rfl
          | derived q alias? => exact ih met
          | nested s => exact ih met
          | other alias? => exact ih met
      | column c => exact ih met
      | query q => exact ih met

/-- What was met before the walk is visible at all its tables. -/
theorem usesMet_of_append (met before : List Text) (visits : List Visit) :
    usesMet (met ++ before) visits =
      (usesMet met visits).map fun use => ⟨use.visible ++ before, use.table⟩ := by
  induction visits generalizing met with
  | nil => rfl
  | cons v rest ih =>
      cases v with
      | cte c => exact ih (c.name :: met)
      | relation relation =>
          cases relation with
          | table name alias? =>
              rw [usesMet, usesMet, ih]
              rfl
          | derived q alias? => exact ih met
          | nested s => exact ih met
          | other alias? => exact ih met
      | column c => exact ih met
      | query q => exact ih met

/-- The tables used where some names are visible are met on the walk, each behind all that is
visible there, whatever was met before the walk. -/
def MetWithin (visible : List Text) (uses : List TableUse) (visits : List Visit) : Prop :=
  ∀ met, visible ⊆ met → List.Forall₂ TableUse.Widens uses (usesMet met visits)

section

variable {visible visible' : List Text} {uses uses' : List TableUse} {first second : List Visit}

theorem MetWithin.nil (visible : List Text) : MetWithin visible [] [] :=
  fun _ _ => .nil

theorem MetWithin.table (visible : List Text) (name : TableName) (alias? : Option Text) :
    MetWithin visible [⟨visible, name⟩] [.relation (.table name alias?)] :=
  fun _ h => .cons ⟨rfl, h⟩ .nil

/-- Two parts of a walk of which the second sees what the first has met. -/
theorem MetWithin.append_of_subset (hfirst : MetWithin visible uses first)
    (hsecond : MetWithin visible' uses' second)
    (hsubset : ∀ met, visible ⊆ met → visible' ⊆ visibleBehind met (ctesMet first)) :
    MetWithin visible (uses ++ uses') (first ++ second) := by
  intro met hmet
  rw [usesMet_append]
  exact List.rel_append (hfirst met hmet) (hsecond _ (hsubset met hmet))

theorem MetWithin.append (hfirst : MetWithin visible uses first)
    (hsecond : MetWithin visible uses' second) :
    MetWithin visible (uses ++ uses') (first ++ second) :=
  hfirst.append_of_subset hsecond fun met hmet =>
    List.Subset.trans hmet (subset_visibleBehind met _)

theorem MetWithin.cte {c : Cte} (h : MetWithin (c.name :: visible) uses second) :
    MetWithin visible uses (.cte c :: second) := by
  intro met hmet
  exact h (c.name :: met) (List.cons_subset_cons c.name hmet)

end

/-- A list of common table expressions is met as a whole. -/
theorem subset_ctesMet (ctes : List Cte) : ctes ⊆ ctesMet (visitsOfCtes (fun _ => true) ctes) := by
  induction ctes with
  | nil => exact List.nil_subset _
  | cons c rest ih =>
      obtain ⟨name, columns, q⟩ := c
      have hmet : ctesMet (visitsOfCtes (fun _ => true) (.mk name columns q :: rest)) =
          .mk name columns q :: (ctesMet (q.visits fun _ => true)
            ++ ctesMet (visitsOfCtes (fun _ => true) rest)) :=
        congrArg (List.cons _) (ctesMet_append _ _)
      rw [hmet]
      exact List.cons_subset_cons _ (List.subset_append_of_subset_right _ ih)

theorem visibleBehind_subset {visible met : List Text} {ctes ctes' : List Cte}
    (h : visible ⊆ met) (hctes : ctes ⊆ ctes') :
    visibleBehind visible ctes ⊆ visibleBehind met ctes' := by
  intro name hname
  rcases List.mem_append.mp hname with hcte | hvisible
  · obtain ⟨c, hc, rfl⟩ := List.mem_map.mp (List.mem_reverse.mp hcte)
    exact List.mem_append_left _ (List.mem_reverse.mpr (List.mem_map_of_mem (hctes hc)))
  · exact List.mem_append_right _ (h hvisible)

mutual

theorem Expression.metWithin : ∀ (e : Expression) (visible : List Text),
    MetWithin visible (e.uses visible) (e.visits fun _ => true)
  | .column _, visible => by
      simp only [Expression.uses, Expression.visits]
      exact MetWithin.nil visible
  | .subquery q, visible => by
      simp only [Expression.uses, Expression.visits, if_pos]
      exact q.metWithin visible
  | .all parts, visible => by
      simp only [Expression.uses, Expression.visits]
      exact metWithin_all parts visible
  | .literal, visible => by
      simp only [Expression.uses, Expression.visits]
      exact MetWithin.nil visible

theorem metWithin_all : ∀ (es : List Expression) (visible : List Text),
    MetWithin visible (usesOfAll visible es) (visitsOfAll (fun _ => true) es)
  | [], visible => MetWithin.nil visible
  | e :: rest, visible => (e.metWithin visible).append (metWithin_all rest visible)

theorem metWithin_option : ∀ (e : Option Expression) (visible : List Text),
    MetWithin visible (usesOfOption visible e) (visitsOfOption (fun _ => true) e)
  | none, visible => by
      simp only [usesOfOption, visitsOfOption]
      exact MetWithin.nil visible
  | some e, visible => by
      simp only [usesOfOption, visitsOfOption]
      exact e.metWithin visible

theorem Query.metWithin : ∀ (q : Query) (visible : List Text),
    MetWithin visible (q.uses visible) (q.visits fun _ => true)
  | .mk ctes selects order, visible => by
      have hselects := metWithin_selects selects (visibleBehind visible ctes)
      have horder := metWithin_all order (visibleBehind visible ctes)
      simp only [Query.uses, Query.visits, List.append_assoc]
      refine (metWithin_ctes ctes visible).append_of_subset (hselects.append horder) ?_
      exact fun met hmet => visibleBehind_subset hmet (subset_ctesMet ctes)

theorem metWithin_ctes : ∀ (ctes : List Cte) (visible : List Text),
    MetWithin visible (usesOfCtes visible ctes) (visitsOfCtes (fun _ => true) ctes)
  | [], visible => MetWithin.nil visible
  | .mk name columns q :: rest, visible => by
      have hquery := q.metWithin (name :: visible)
      have hrest := metWithin_ctes rest (name :: visible)
      simp only [usesOfCtes, visitsOfCtes, if_pos]
      exact MetWithin.cte (c := .mk name columns q) (hquery.append hrest)

theorem metWithin_selects : ∀ (selects : List Select) (visible : List Text),
    MetWithin visible (usesOfSelects visible selects) (visitsOfSelects (fun _ => true) selects)
  | [], visible => MetWithin.nil visible
  | .mk items sources selection groups having :: rest, visible => by
      have hitems := (metWithin_sources sources visible).append (metWithin_items items visible)
      have hgroups := (hitems.append (metWithin_option selection visible)).append
        (metWithin_all groups visible)
      simp only [usesOfSelects, Select.uses, visitsOfSelects]
      exact (hgroups.append (metWithin_option having visible)).append
        (metWithin_selects rest visible)

theorem metWithin_items : ∀ (items : List Item) (visible : List Text),
    MetWithin visible (usesOfItems visible items) (visitsOfItems (fun _ => true) items)
  | [], visible => MetWithin.nil visible
  | .value e _ :: rest, visible => (e.metWithin visible).append (metWithin_items rest visible)
  | .star :: rest, visible => metWithin_items rest visible
  | .starOf _ :: rest, visible => metWithin_items rest visible

theorem metWithin_sources : ∀ (sources : List Source) (visible : List Text),
    MetWithin visible (usesOfSources visible sources) (visitsOfSources (fun _ => true) sources)
  | [], visible => MetWithin.nil visible
  | s :: rest, visible => (s.metWithin visible).append (metWithin_sources rest visible)

theorem Source.metWithin : ∀ (s : Source) (visible : List Text),
    MetWithin visible (s.uses visible) (s.visits fun _ => true)
  | .mk relation joins, visible => by
      simp only [Source.uses, Source.visits]
      exact (relation.metWithin visible).append (metWithin_joins joins visible)

theorem metWithin_joins : ∀ (joins : List Join) (visible : List Text),
    MetWithin visible (usesOfJoins visible joins) (visitsOfJoins (fun _ => true) joins)
  | [], visible => MetWithin.nil visible
  | .mk relation on :: rest, visible =>
      ((relation.metWithin visible).append (metWithin_option on visible)).append
        (metWithin_joins rest visible)

theorem Relation.metWithin : ∀ (r : Relation) (visible : List Text),
    MetWithin visible (r.uses visible) (r.visits fun _ => true)
  | .table name alias?, visible => by
      simp only [Relation.uses, Relation.visits]
      exact MetWithin.table visible name alias?
  | .derived q _, visible => by
      simp only [Relation.uses, Relation.visits, if_pos]
      exact q.metWithin visible
  | .nested s, visible => by
      simp only [Relation.uses, Relation.visits]
      exact s.metWithin visible
  | .other _, visible => by
      simp only [Relation.uses, Relation.visits]
      exact MetWithin.nil visible

end

theorem Statement.metWithin (s : Statement) : MetWithin [] s.uses (s.visits fun _ => true) := by
  cases s with
  | select q => exact q.metWithin []
  | insert table columns source =>
      cases source with
      | none => exact MetWithin.table [] table none
      | some q => exact (MetWithin.table [] table none).append (q.metWithin [])
  | update table alias? assigned values selection =>
      have hvalues := metWithin_all values []
      have hselection := metWithin_option selection []
      cases table with
      | none => exact ((MetWithin.nil []).append hvalues).append hselection
      | some name => exact ((MetWithin.table [] name alias?).append hvalues).append hselection
  | delete sources selection =>
      exact (metWithin_sources sources []).append (metWithin_option selection [])
  | other => exact MetWithin.nil []

end Outline

namespace References

theorem metWithin_walk (ss : List Statement) :
    MetWithin [] (ss.flatMap Statement.uses) (walk ss) := by
  induction ss with
  | nil => exact MetWithin.nil []
  | cons s rest ih => exact s.metWithin.append ih

/-- The common table expressions known to the references are those of the names that have been
met. -/
structure Knows (met : List Text) (r : References) : Prop where
  isSome_lookup : ∀ key, (r.ctes.lookup key).isSome = met.any (·.lower == key)
  of_lookup : ∀ {key b}, r.ctes.lookup key = some b → b.kind = .cte ∧ b.table.lower = key

theorem knows_nothing : Knows [] {} :=
  ⟨fun _ => rfl, fun h => by simp at h⟩

theorem Knows.cte {met : List Text} {r : References} (h : Knows met r) (c : Cte) :
    Knows (c.name :: met) (r.visit (.cte c)) := by
  constructor
  · intro key
    rw [lookup_ctes_visit, List.any_cons]
    by_cases hkey : (c.name.lower == key) = true
    · simp [Visit.cte?, hkey]
    · simp [Visit.cte?, hkey, h.isSome_lookup key]
  · intro key b hb
    rw [lookup_ctes_visit] at hb
    by_cases hkey : (c.name.lower == key) = true
    · simp only [Visit.cte?, Option.any_some, hkey, if_pos, Option.map_some] at hb
      obtain rfl := Option.some.inj hb
      exact ⟨rfl, beq_iff_eq.mp hkey⟩
    · simp only [Visit.cte?, Option.any_some, hkey] at hb
      exact h.of_lookup hb

theorem Knows.of_ctes {met : List Text} {r r' : References} (h : Knows met r)
    (hctes : r'.ctes = r.ctes) : Knows met r' := by
  refine ⟨fun key => ?_, fun hb => ?_⟩
  · rw [hctes]
    exact h.isSome_lookup key
  · rw [hctes] at hb
    exact h.of_lookup hb

theorem Knows.isSome_cteOf? {met : List Text} {r : References} (h : Knows met r)
    (name : TableName) : (r.cteOf? name).isSome = (TableUse.mk met name).isCte := by
  unfold cteOf? TableUse.isCte
  cases name.schema.isNone
  · rfl
  · exact h.isSome_lookup _

theorem Knows.of_cteOf? {met : List Text} {r : References} (h : Knows met r) {name : TableName}
    {b : Binding} (hb : r.cteOf? name = some b) :
    b.kind = .cte ∧ b.table.lower = name.name.lower := by
  unfold cteOf? at hb
  split at hb
  · exact h.of_lookup hb
  · contradiction

/-- What the tables that a walk meets stand for, each right after it is met. -/
def bound (r : References) : List Visit → List (Option Binding)
  | [] => []
  | v :: rest => (v.word?.map (r.visit v).resolve?).toList ++ bound (r.visit v) rest

variable {met : List Text} {r : References}

theorem Knows.standsFor (h : Knows met r) (name : TableName) (alias? : Option Text) :
    (TableUse.mk met name).StandsFor
      ((r.visit (.relation (.table name alias?))).resolve? (alias?.getD name.name)) := by
  intro hname
  have hknown := h.isSome_cteOf? name
  refine ⟨_, lookup_aliases_table hname r alias?, ?_⟩
  rw [tableBinding]
  cases hcte : r.cteOf? name with
  | none =>
      rw [hcte] at hknown
      rw [← hknown]
      rfl
  | some b =>
      rw [hcte] at hknown
      rw [← hknown]
      exact h.of_cteOf? hcte

theorem Knows.listed? (h : Knows met r) (name : TableName) (alias? : Option Text) :
    r.listed? (.relation (.table name alias?)) = (TableUse.mk met name).physical? := by
  rw [References.listed?, TableUse.physical?, h.isSome_cteOf? name]

/-- On a walk, a table stands for the common table expression of its name if one has been met. -/
theorem standsFor_bound (visits : List Visit) {met : List Text} {r : References} (h : Knows met r) :
    List.Forall₂ TableUse.StandsFor (usesMet met visits) (bound r visits) := by
  induction visits generalizing met r with
  | nil => exact .nil
  | cons v rest ih =>
      cases v with
      | cte c => exact ih (h.cte c)
      | relation relation =>
          cases relation with
          | table name alias? =>
              exact .cons (h.standsFor name alias?) (ih (h.of_ctes (ctes_bindTable r name alias?)))
          | derived q alias? => cases alias? <;> exact ih (h.of_ctes rfl)
          | nested s => exact ih h
          | other alias? => exact ih h
      | column c => exact ih h
      | query q => exact ih h

theorem tables_foldl (visits : List Visit) {met : List Text} {r : References} (h : Knows met r) :
    (visits.foldl visit r).tables =
      r.tables ++ (usesMet met visits).filterMap TableUse.physical? := by
  induction visits generalizing met r with
  | nil => simp [usesMet]
  | cons v rest ih =>
      rw [List.foldl_cons]
      cases v with
      | cte c => exact ih (h.cte c)
      | relation relation =>
          cases relation with
          | table name alias? =>
              have hctes : (r.visit (.relation (.table name alias?))).ctes = r.ctes :=
                ctes_bindTable r name alias?
              rw [ih (h.of_ctes hctes), tables_visit, h.listed?, List.append_assoc, usesMet,
                List.filterMap_cons]
              cases (TableUse.mk met name).physical? <;> rfl
          | derived q alias? => cases alias? <;> exact ih (h.of_ctes rfl)
          | nested s => exact ih h
          | other alias? => exact ih h
      | column c => exact ih h
      | query q => exact ih h

theorem tables_ofStatements (ss : List Statement) :
    (ofStatements ss).tables = (usesMet [] (walk ss)).filterMap TableUse.physical? := by
  rw [ofStatements_eq, tables_foldl _ knows_nothing]
  rfl

end References

namespace Outline

theorem filterMap_physical_sublist {uses wider : List TableUse}
    (h : List.Forall₂ TableUse.Widens uses wider) :
    (wider.filterMap TableUse.physical?).Sublist (uses.filterMap TableUse.physical?) := by
  induction h with
  | nil => exact .slnil
  | cons hwidens _ ih =>
      rw [List.filterMap_cons, List.filterMap_cons]
      rcases hwidens.physical? with hsame | ⟨hnone, hsome⟩
      · rw [hsame.physical?]
        split
        · exact ih
        · exact ih.cons_cons _
      · obtain ⟨x, hx⟩ := Option.isSome_iff_exists.mp hsome
        rw [hnone, hx]
        exact ih.cons x

/-- Where more is visible, as many tables are listed only if all are listed as before. -/
theorem filterMap_physical_eq_iff {uses wider : List TableUse}
    (h : List.Forall₂ TableUse.Widens uses wider) :
    wider.filterMap TableUse.physical? = uses.filterMap TableUse.physical? ↔
      List.Forall₂ TableUse.SameRole uses wider := by
  induction h with
  | nil => exact ⟨fun _ => .nil, fun _ => rfl⟩
  | @cons use use' us us' hwidens hrest ih =>
      rw [List.forall₂_cons, List.filterMap_cons, List.filterMap_cons]
      rcases hwidens.physical? with hsame | ⟨hnone, hsome⟩
      · rw [hsame.physical?, and_iff_right hsame]
        split
        · exact ih
        · rw [List.cons_inj_right]
          exact ih
      · obtain ⟨x, hx⟩ := Option.isSome_iff_exists.mp hsome
        rw [hnone, hx]
        constructor
        · intro heq
          have hlength := (filterMap_physical_sublist hrest).length_le
          simp only at heq
          rw [heq, List.length_cons] at hlength
          omega
        · rintro ⟨hsame, -⟩
          rw [hsame.physical?, hx] at hnone
          contradiction

end Outline

namespace References

/-- Whether every name is taken for a common table expression exactly where it is visible: no table
is named like one that was met before and is not visible. -/
def Scoped (ss : List Statement) : Prop :=
  List.Forall₂ TableUse.SameRole (ss.flatMap Statement.uses) (usesMet [] (walk ss))

/-- Whether no table listed for the second statements is named like a common table expression of
the first. -/
def Apart (ss more : List Statement) : Prop :=
  ∀ use ∈ usesMet [] (walk more), use.table.schema = none → use.physical?.isSome = true →
    ∀ c ∈ ctesMet (walk ss), c.name.lower ≠ use.table.name.lower

theorem tables_eq_iff_scoped (ss : List Statement) :
    (ofStatements ss).tables = (ss.flatMap Statement.uses).filterMap TableUse.physical? ↔
      Scoped ss := by
  rw [tables_ofStatements]
  exact filterMap_physical_eq_iff (metWithin_walk ss [] (List.Subset.refl []))

/-- Relations that a list shares with two others hold between these. -/
theorem forall₂_trans_iff {α β γ : Type} {R : α → β → Prop} {S : β → γ → Prop} {T : α → γ → Prop}
    {E : α → β → Prop}
    {xs : List α} {ys : List β} {zs : List γ} (hR : List.Forall₂ R xs ys)
    (hS : List.Forall₂ S ys zs)
    (h : ∀ x y z, R x y → S y z → (T x z ↔ E x y)) :
    List.Forall₂ T xs zs ↔ List.Forall₂ E xs ys := by
  induction hR generalizing zs with
  | nil =>
      cases hS
      exact ⟨fun _ => .nil, fun _ => .nil⟩
  | cons hr _ ih =>
      cases hS with
      | cons hs hrest =>
          rw [List.forall₂_cons, List.forall₂_cons, h _ _ _ hr hs, ih hrest]

theorem standsFor_iff_scoped (ss : List Statement) :
    List.Forall₂ TableUse.StandsFor (ss.flatMap Statement.uses) (bound {} (walk ss)) ↔
      Scoped ss := by
  refine forall₂_trans_iff (metWithin_walk ss [] (List.Subset.refl []))
    (standsFor_bound (walk ss) knows_nothing) fun use met binding? hwidens hmet => ?_
  constructor
  · intro huse
    exact ⟨hwidens.table, huse.isCte_eq hwidens.table hmet⟩
  · intro hsame
    exact (hsame.standsFor_iff binding?).mp hmet

theorem tables_append_eq_iff_apart (ss more : List Statement) :
    (ofStatements (ss ++ more)).tables = (ofStatements ss).tables ++ (ofStatements more).tables ↔
      Apart ss more := by
  let names := visibleBehind [] (ctesMet (walk ss))
  have hwider : usesMet names (walk more) =
      (usesMet [] (walk more)).map fun use => ⟨use.visible ++ names, use.table⟩ :=
    usesMet_of_append [] names (walk more)
  have hwidens : List.Forall₂ TableUse.Widens (usesMet [] (walk more))
      (usesMet names (walk more)) := by
    rw [hwider, List.forall₂_map_right_iff, List.forall₂_same]
    exact fun use _ => ⟨rfl, List.subset_append_left _ _⟩
  have hnames : ∀ key : Text, (∀ name ∈ names, name.lower ≠ key) ↔
      ∀ c ∈ ctesMet (walk ss), c.name.lower ≠ key := by
    intro key
    simp [names, visibleBehind]
  rw [tables_ofStatements, tables_ofStatements, tables_ofStatements, walk_append, usesMet_append,
    List.filterMap_append, List.append_cancel_left_eq, filterMap_physical_eq_iff hwidens, hwider,
    List.forall₂_map_right_iff, List.forall₂_same, Apart]
  refine forall₂_congr fun use _ => ?_
  rw [TableUse.sameRole_behind, hnames]

/-- The tables of statements are those of lexical scoping, and each name stands for what it stands
for there, exactly where no table is named like a common table expression met before that is not
visible; and the tables of two lists of statements are those of one after those of the other exactly
where no table of the second is named like a common table expression of the first. -/
theorem lexical_iff_scoped (ss : List Statement) :
    ((ofStatements ss).tables = (ss.flatMap Statement.uses).filterMap TableUse.physical? ↔
        Scoped ss) ∧
      (List.Forall₂ TableUse.StandsFor (ss.flatMap Statement.uses) (bound {} (walk ss)) ↔
        Scoped ss) ∧
      ∀ more, (ofStatements (ss ++ more)).tables =
          (ofStatements ss).tables ++ (ofStatements more).tables ↔ Apart ss more :=
  ⟨tables_eq_iff_scoped ss, standsFor_iff_scoped ss, tables_append_eq_iff_apart ss⟩

def selectFrom (column table : String) : Select :=
  .mk [.value (.column ⟨none, column.toList⟩) none]
    [.mk (.table ⟨none, table.toList⟩ none) []] none [] none

/-- The statement `WITH a AS (SELECT 1 AS x) SELECT x FROM a`. -/
def withA : Statement :=
  .select (.mk [.mk "a".toList [] (.mk [] [.mk [.value .literal (some "x".toList)] [] none [] none]
    [])] [selectFrom "x" "a"] [])

/-- The statement `SELECT x FROM a`. -/
def fromA : Statement :=
  .select (.mk [] [selectFrom "x" "a"] [])

/-- A name is still taken for a common table expression in the statement that follows. -/
theorem cte_outlives_statement :
    (ofStatements ([withA] ++ [fromA])).tables = [] ∧
      (ofStatements [withA]).tables ++ (ofStatements [fromA]).tables =
        [("dbo".toList, "a".toList)] ∧
      ([withA, fromA].flatMap Statement.uses).filterMap TableUse.physical? =
        [("dbo".toList, "a".toList)] := by
  decide +kernel

end References

end SqlInsight
