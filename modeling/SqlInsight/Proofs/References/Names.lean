/-
Where the names in references come from. Every name that is bound or listed was met on the walk
through the statements, or else is written in the text that was searched; so what holds of the names
met, or of all that is written, holds of the names in the references.
-/
import SqlInsight.Proofs.References.Walk
import SqlInsight.Proofs.Text.Pattern

namespace SqlInsight

open Outline

theorem Keyed.mem_put {κ α : Type} [DecidableEq κ] {key : κ} {value : α} {list : List (κ × α)}
    {entry : κ × α} (h : entry ∈ Keyed.put key value list) :
    entry = (key, value) ∨ entry ∈ list := by
  induction list with
  | nil => exact Or.inl (List.mem_singleton.mp h)
  | cons first rest ih =>
      rw [Keyed.put] at h
      split at h
      · rcases List.mem_cons.mp h with hput | hrest
        · exact Or.inl hput
        · exact Or.inr (List.mem_cons_of_mem first hrest)
      · rcases List.mem_cons.mp h with rfl | hput
        · exact Or.inr List.mem_cons_self
        · exact (ih hput).imp id (List.mem_cons_of_mem first)

/-- The names in a binding: `P` holds of those that the statement gives, and `Q` of those of
tables. -/
structure Binding.Names (P Q : Text → Prop) (b : Binding) : Prop where
  table : if b.isPhysical then Q b.table else P b.table
  columns : ∀ column ∈ b.columns, P column
  source : ∀ name, b.source = some name → Q name.name

/-- The names in references: `P` holds of those that the statements give, and `Q` of those of
tables. -/
structure References.Names (P Q : Text → Prop) (r : References) : Prop where
  tables : ∀ table ∈ r.tables, Q table.2
  aliases : ∀ entry ∈ r.aliases, (∃ name, P name ∧ entry.1 = name.lower) ∧ entry.2.Names P Q
  ctes : ∀ entry ∈ r.ctes, (∃ name, P name ∧ entry.1 = name.lower) ∧ entry.2.Names P Q

/-- The names in something that is met on a walk. -/
def Outline.Visit.Names (P Q : Text → Prop) : Visit → Prop
  | .cte c => P c.name ∧ (Binding.ofDeclared c).Names P Q
  | .relation (.table name alias?) =>
      isPlaceholder name.name = false → Q name.name ∧ ∀ a, alias? = some a → P a
  | .relation (.derived q (some name)) => P name ∧ ∀ column ∈ q.outputColumns, P column
  | _ => True

namespace Binding

variable {P Q : Text → Prop}

theorem names_ofTable {name : TableName} (h : Q name.name) : (ofTable name).Names P Q := by
  refine ⟨?_, fun column hcolumn => ?_, fun source hsource => ?_⟩
  · rw [isPhysical_ofTable]
    exact h
  · exact absurd hcolumn List.not_mem_nil
  · contradiction

theorem names_ofCte {name : Text} {columns : List Text} {source : Option TableName} (h : P name)
    (hcolumns : ∀ column ∈ columns, P column)
    (hsource : ∀ table, source = some table → Q table.name) :
    (ofCte name columns source).Names P Q :=
  ⟨h, hcolumns, hsource⟩

theorem names_ofSubquery {name : Text} {columns : List Text} (h : P name)
    (hcolumns : ∀ column ∈ columns, P column) : (ofSubquery name columns).Names P Q :=
  ⟨h, hcolumns, fun _ hsource => by contradiction⟩

end Binding

namespace References

variable {P Q : Text → Prop} {r : References}

theorem names_nothing : Names P Q {} :=
  ⟨fun _ h => absurd h List.not_mem_nil, fun _ h => absurd h List.not_mem_nil,
    fun _ h => absurd h List.not_mem_nil⟩

theorem Names.putAlias (h : r.Names P Q) {name : Text} {binding : Binding} (hname : P name)
    (hbinding : binding.Names P Q) :
    { r with aliases := Keyed.put name.lower binding r.aliases }.Names P Q := by
  refine ⟨h.tables, fun entry hentry => ?_, h.ctes⟩
  rcases Keyed.mem_put hentry with rfl | hold
  · exact ⟨⟨name, hname, rfl⟩, hbinding⟩
  · exact h.aliases entry hold

theorem Names.bindCte (h : r.Names P Q) {name : Text} {columns : List Text}
    {source : Option TableName} (hname : P name)
    (hbinding : (Binding.ofCte name columns source).Names P Q) :
    (r.bindCte name columns source).Names P Q := by
  have haliases := (h.putAlias hname hbinding).aliases
  refine ⟨h.tables, haliases, fun entry hentry => ?_⟩
  rcases Keyed.mem_put hentry with rfl | hold
  · exact ⟨⟨name, hname, rfl⟩, hbinding⟩
  · exact h.ctes entry hold

theorem mem_of_cteOf? {name : TableName} {binding : Binding} (h : r.cteOf? name = some binding) :
    (name.name.lower, binding) ∈ r.ctes := by
  unfold cteOf? at h
  split at h
  · obtain ⟨before, after, hlist, -⟩ := List.lookup_eq_some_iff.mp h
    rw [hlist]
    exact List.mem_append_right _ List.mem_cons_self
  · contradiction

theorem Names.bindTable (h : r.Names P Q) (hPQ : ∀ name, Q name → P name) {name : TableName}
    {alias? : Option Text}
    (hnames : isPlaceholder name.name = false → Q name.name ∧ ∀ a, alias? = some a → P a) :
    (r.bindTable name alias?).Names P Q := by
  by_cases hplaceholder : isPlaceholder name.name = true
  · rw [bindTable_of_placeholder hplaceholder]
    exact h
  · have hname : isPlaceholder name.name = false := by simpa using hplaceholder
    obtain ⟨htable, halias⟩ := hnames hname
    have hkey : P (alias?.getD name.name) := by
      cases alias? with
      | none => exact hPQ _ htable
      | some a => exact halias a rfl
    cases hcte : r.cteOf? name with
    | none =>
        rw [bindTable_of_table hname hcte]
        have hput := h.putAlias hkey (Binding.names_ofTable (P := P) htable)
        refine ⟨fun table hmem => ?_, hput.aliases, h.ctes⟩
        rcases List.mem_append.mp hmem with hold | hnew
        · exact h.tables table hold
        · rw [List.mem_singleton.mp hnew]
          exact htable
    | some binding =>
        rw [bindTable_of_cte hname hcte]
        exact h.putAlias hkey (h.ctes _ (mem_of_cteOf? hcte)).2

theorem Names.visit (h : r.Names P Q) (hPQ : ∀ name, Q name → P name) {v : Visit}
    (hv : v.Names P Q) : (r.visit v).Names P Q := by
  cases v with
  | cte c => exact h.bindCte hv.1 hv.2
  | relation relation =>
      cases relation with
      | table name alias? => exact h.bindTable hPQ hv
      | derived query alias? =>
          cases alias? with
          | none => exact h
          | some name => exact h.putAlias hv.1 (Binding.names_ofSubquery hv.1 hv.2)
      | nested s => exact h
      | other alias? => exact h
  | column c => exact h
  | query q => exact h

theorem Names.foldl (hPQ : ∀ name, Q name → P name) {visits : List Visit}
    (hvisits : ∀ v ∈ visits, v.Names P Q) (h : r.Names P Q) :
    (visits.foldl References.visit r).Names P Q := by
  refine List.foldlRecOn visits References.visit h ?_
  intro r hr v hv
  exact hr.visit hPQ (hvisits v hv)

/-- What holds of all names met on a walk holds of the names in the references. -/
theorem names_ofStatements (hPQ : ∀ name, Q name → P name) {ss : List Statement}
    (h : ∀ v ∈ walk ss, v.Names P Q) : (ofStatements ss).Names P Q :=
  names_nothing.foldl hPQ h

end References

end SqlInsight
