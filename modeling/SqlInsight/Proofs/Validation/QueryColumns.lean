/-
The columns of a query as a check knows them, beside the names that its first `SELECT` gives. They
are the same where that has no star; a star adds the columns of what it stands for, and a query that
is nothing but stars over one table has the columns of that table.
-/
import Mathlib.Data.List.Forall2
import SqlInsight.References
import SqlInsight.Validation.Names

namespace SqlInsight.Validation

open Outline

/-- Whether the first `SELECT` of a query has no star. -/
def isPlain (q : Query) : Bool :=
  !q.selects.head?.any Select.hasStar

theorem itemColumns?_of_not_isStar {relations : List KeyedColumns} {item : Item}
    (h : item.isStar = false) : itemColumns? relations item = some item.outputName?.toList := by
  cases item with
  | star => contradiction
  | starOf qualifier => contradiction
  | value e alias? => rfl

theorem forall₂_of_mapM {α β : Type} {f : α → Option β} {xs : List α} {ys : List β}
    (h : xs.mapM f = some ys) : List.Forall₂ (fun x y => f x = some y) xs ys := by
  induction xs generalizing ys with
  | nil =>
      obtain rfl := Option.some.inj h
      exact .nil
  | cons x rest ih =>
      rw [List.mapM_cons] at h
      obtain ⟨y, hy, h⟩ := Option.bind_eq_some_iff.mp h
      obtain ⟨more, hmore, h⟩ := Option.bind_eq_some_iff.mp h
      obtain rfl := Option.some.inj h
      exact .cons hy (ih hmore)

/-- The columns of each of some items over these relations. -/
abbrev ItemBlocks (relations : List KeyedColumns) (items : List Item)
    (blocks : List (List Text)) : Prop :=
  List.Forall₂ (fun item block => itemColumns? relations item = some block) items blocks

/-- An item that gives its column a name has that column. -/
theorem ItemBlocks.outputNames_subset {relations : List KeyedColumns} {items : List Item}
    {blocks : List (List Text)} (h : ItemBlocks relations items blocks) :
    items.filterMap Item.outputName? ⊆ blocks.flatten := by
  induction h with
  | nil => exact List.nil_subset _
  | @cons item block rest more hblock _ ih =>
      rw [List.filterMap_cons, List.flatten_cons]
      split
      · exact List.subset_append_of_subset_right _ ih
      · rename_i name hname
        have hvalue : item.isStar = false := by
          cases item with
          | value e alias? => rfl
          | star => contradiction
          | starOf qualifier => contradiction
        rw [itemColumns?_of_not_isStar hvalue, hname] at hblock
        obtain rfl := Option.some.inj hblock
        exact List.cons_subset_cons name ih

theorem ItemBlocks.flatten_eq {relations : List KeyedColumns} {items : List Item}
    {blocks : List (List Text)} (h : ItemBlocks relations items blocks)
    (hplain : items.any Item.isStar = false) :
    blocks.flatten = items.filterMap Item.outputName? := by
  induction h with
  | nil => rfl
  | @cons item block rest more hblock _ ih =>
      rw [List.any_cons, Bool.or_eq_false_iff] at hplain
      rw [itemColumns?_of_not_isStar hplain.1] at hblock
      obtain rfl := Option.some.inj hblock
      rw [List.flatten_cons, ih hplain.2, List.filterMap_cons]
      cases item.outputName? <;> rfl

/-- Items without names over one relation have its columns as often as there are stars. -/
theorem ItemBlocks.mem_of_unnamed {relation : KeyedColumns} {items : List Item}
    {blocks : List (List Text)} {columns : List Text} (h : ItemBlocks [relation] items blocks)
    (hcolumns : relation.columns = some columns)
    (hunnamed : items.filterMap Item.outputName? = []) :
    ∀ block ∈ blocks, block = [] ∨ block = columns := by
  have hall : allColumns? [relation] = some columns := by
    simp [allColumns?, hcolumns]
  induction h with
  | nil => exact fun block hblock => absurd hblock List.not_mem_nil
  | @cons item first rest more hfirst _ ih =>
      have hitem : item.outputName? = none := by
        cases hname : item.outputName? with
        | none => rfl
        | some name => simp [hname] at hunnamed
      rw [List.filterMap_cons, hitem] at hunnamed
      intro block hblock
      rcases List.mem_cons.mp hblock with rfl | hmore
      · cases item with
        | star =>
            rw [itemColumns?, hall] at hfirst
            exact Or.inr (Option.some.inj hfirst).symm
        | starOf qualifier =>
            rw [itemColumns?, List.find?_singleton] at hfirst
            split at hfirst
            · rw [Option.bind_some, hcolumns] at hfirst
              exact Or.inr (Option.some.inj hfirst).symm
            · contradiction
        | value e alias? =>
            rw [itemColumns?, hitem] at hfirst
            exact Or.inl (Option.some.inj hfirst).symm
      · exact ih hunnamed block hmore

theorem ItemBlocks.mem_of_star {relation : KeyedColumns} {items : List Item}
    {blocks : List (List Text)} (h : ItemBlocks [relation] items blocks)
    (hstar : (items.any fun | .star => true | _ => false) = true) :
    ∃ columns, relation.columns = some columns ∧ columns ∈ blocks := by
  induction h with
  | nil => simp at hstar
  | @cons item first rest more hfirst _ ih =>
      rw [List.any_cons, Bool.or_eq_true] at hstar
      rcases hstar with hitem | hrest
      · cases item with
        | star =>
            cases hcolumns : relation.columns with
            | none => simp [itemColumns?, allColumns?, hcolumns] at hfirst
            | some columns =>
                refine ⟨columns, rfl, ?_⟩
                have hall : allColumns? [relation] = some columns := by
                  simp [allColumns?, hcolumns]
                rw [itemColumns?, hall] at hfirst
                rw [Option.some.inj hfirst]
                exact List.mem_cons_self
        | starOf qualifier => contradiction
        | value e alias? => contradiction
      · obtain ⟨columns, hcolumns, hmem⟩ := ih hrest
        exact ⟨columns, hcolumns, List.mem_cons_of_mem first hmem⟩

/-- Columns that are repeated stand first, and then only repeat. -/
theorem exists_flatten_eq {columns : List Text} {blocks : List (List Text)}
    (h : ∀ block ∈ blocks, block = [] ∨ block = columns) (hmem : columns ∈ blocks) :
    ∃ tail, blocks.flatten = columns ++ tail ∧ tail ⊆ columns := by
  induction blocks with
  | nil => contradiction
  | cons first rest ih =>
      have hrest := fun block hblock => h block (List.mem_cons_of_mem first hblock)
      have htail : rest.flatten ⊆ columns := by
        intro column hcolumn
        obtain ⟨block, hblock, hin⟩ := List.mem_flatten.mp hcolumn
        rcases hrest block hblock with rfl | rfl
        · exact absurd hin List.not_mem_nil
        · exact hin
      rcases h first List.mem_cons_self with rfl | rfl
      · rcases List.mem_cons.mp hmem with rfl | hmore
        · exact ⟨rest.flatten, rfl, htail⟩
        · exact ih hrest hmore
      · exact ⟨rest.flatten, rfl, htail⟩

/-- The first `SELECT` of a query with known columns, and what its items have. -/
theorem exists_of_queryColumns? {n : Names} {q : Query} {columns : List Text}
    (h : queryColumns? n q = some columns) :
    ∃ items sources selection groups having more blocks,
      q.selects = .mk items sources selection groups having :: more ∧
        ItemBlocks (keyedOfSources n sources) items blocks ∧ columns = blocks.flatten := by
  obtain ⟨ctes, selects, order⟩ := q
  simp only [queryColumns?] at h
  cases selects with
  | nil => simp [firstColumns?] at h
  | cons first more =>
      obtain ⟨items, sources, selection, groups, having⟩ := first
      simp only [firstColumns?] at h
      obtain ⟨blocks, hblocks, hcolumns⟩ := Option.map_eq_some_iff.mp h
      exact ⟨items, sources, selection, groups, having, more, blocks, rfl, forall₂_of_mapM hblocks,
        hcolumns.symm⟩

theorem outputColumns_subset {n : Names} {q : Query} {columns : List Text}
    (h : queryColumns? n q = some columns) : q.outputColumns ⊆ columns := by
  obtain ⟨items, _, _, _, _, more, blocks, hselects, hblocks, rfl⟩ := exists_of_queryColumns? h
  rw [Query.outputColumns, hselects]
  exact hblocks.outputNames_subset

theorem queryColumns?_of_isPlain {n : Names} {q : Query} {columns : List Text}
    (h : queryColumns? n q = some columns) (hplain : isPlain q = true) :
    columns = q.outputColumns := by
  obtain ⟨items, _, _, _, _, more, blocks, hselects, hblocks, rfl⟩ := exists_of_queryColumns? h
  have hitems : items.any Item.isStar = false := by
    simpa [isPlain, hselects, Select.hasStar, Select.items] using hplain
  rw [Query.outputColumns, hselects]
  exact hblocks.flatten_eq hitems

theorem exists_of_starSource? {q : Query} {source : TableName}
    (h : References.starSource? q = some source) :
    ∃ items alias? selection groups having,
      q.selects = [.mk items [.mk (.table source alias?) []] selection groups having] ∧
        (items.any fun | .star => true | _ => false) = true := by
  unfold References.starSource? at h
  split at h
  · rename_i items name alias? selection groups having hselects
    split at h
    · rename_i hstar
      obtain rfl := Option.some.inj h
      rw [Bool.and_eq_true] at hstar
      exact ⟨items, alias?, selection, groups, having, hselects, hstar.1⟩
    · contradiction
  · contradiction

/-- The columns of a query of nothing but stars over one table are those of the table. -/
theorem queryColumns?_of_starSource? {n : Names} {q : Query} {columns : List Text}
    {source : TableName} (h : queryColumns? n q = some columns)
    (hsource : References.starSource? q = some source) (hunnamed : q.outputColumns = []) :
    ∃ own tail, n.tableColumns? source = some own ∧ columns = own ++ tail ∧ tail ⊆ own := by
  obtain ⟨items, alias?, selection, groups, having, hselects, hstar⟩ :=
    exists_of_starSource? hsource
  obtain ⟨_, _, _, _, _, _, blocks, hselects', hblocks, rfl⟩ := exists_of_queryColumns? h
  rw [hselects] at hselects'
  obtain ⟨hfirst, -⟩ := List.cons.inj hselects'
  injection hfirst with hitems hsources
  subst hitems hsources
  rw [Query.outputColumns, hselects] at hunnamed
  obtain ⟨own, hown, hmem⟩ := ItemBlocks.mem_of_star hblocks hstar
  obtain ⟨tail, hflatten, htail⟩ := exists_flatten_eq (hblocks.mem_of_unnamed hown hunnamed) hmem
  exact ⟨own, tail, hown, hflatten, htail⟩

end SqlInsight.Validation
