/-
What is known about names behind a walk through statements. The common table expression known under
a name is the last one met that has the name, and an alias stands for what was bound under it last.
-/
import SqlInsight.References

namespace SqlInsight

open Outline

namespace Outline

/-- The common table expression that is met, if it is one. -/
def Visit.cte? : Visit → Option Cte
  | .cte c => some c
  | _ => none

/-- The common table expressions that a walk meets. -/
def ctesMet (visits : List Visit) : List Cte :=
  visits.filterMap Visit.cte?

@[simp] theorem ctesMet_nil : ctesMet [] = [] := rfl

@[simp] theorem ctesMet_append (first second : List Visit) :
    ctesMet (first ++ second) = ctesMet first ++ ctesMet second :=
  List.filterMap_append

/-- The name, in lower case, under which something that is met is bound. The word in place of a
missing table is bound under no name. -/
def Visit.key? : Visit → Option Text
  | .cte c => some c.name.lower
  | .relation (.table name alias?) =>
      if isPlaceholder name.name then none else some (alias?.getD name.name).lower
  | .relation (.derived _ (some name)) => some name.lower
  | _ => none

end Outline

namespace Binding

/-- What the name of a common table expression stands for. -/
def ofDeclared (c : Cte) : Binding :=
  ofCte c.name (if c.columns.isEmpty then c.query.outputColumns else c.columns)
    (References.starSource? c.query)

theorem isPhysical_ofTable (name : TableName) : (ofTable name).isPhysical = true := by
  unfold ofTable isPhysical
  simp only
  split <;> rfl

theorem isPhysical_of_kind_cte {b : Binding} (h : b.kind = .cte) : b.isPhysical = false := by
  rw [isPhysical, h]
  rfl

end Binding

namespace References

/-- All that a walk through statements meets. -/
def walk (statements : List Statement) : List Visit :=
  statements.flatMap (·.visits fun _ => true)

theorem ofStatements_eq (statements : List Statement) :
    ofStatements statements = (walk statements).foldl visit {} := rfl

@[simp] theorem walk_append (first second : List Statement) :
    walk (first ++ second) = walk first ++ walk second :=
  List.flatMap_append

/-- The common table expression that a table without a schema may stand for. -/
def cteOf? (r : References) (name : TableName) : Option Binding :=
  if name.schema.isNone then r.ctes.lookup name.name.lower else none

/-- What a table stands for: the common table expression of its name, or else itself. -/
def tableBinding (r : References) (name : TableName) : Binding :=
  (r.cteOf? name).getD (Binding.ofTable name)

/-- What something that is met stands for. -/
def binding? (r : References) : Visit → Option Binding
  | .cte c => some (Binding.ofDeclared c)
  | .relation (.table name _) =>
      if isPlaceholder name.name then none else some (r.tableBinding name)
  | .relation (.derived query (some name)) => some (Binding.ofSubquery name query.outputColumns)
  | _ => none

/-- The table that is listed for something that is met. -/
def listed? (r : References) : Visit → Option (Text × Text)
  | .relation (.table name _) =>
      if isPlaceholder name.name || (r.cteOf? name).isSome then none
      else some (name.schema.getD defaultSchema, name.name)
  | _ => none

theorem bindTable_of_placeholder {name : TableName} (h : isPlaceholder name.name = true)
    (r : References) (alias? : Option Text) : r.bindTable name alias? = r := by
  rw [bindTable, if_pos h]

theorem bindTable_of_cte {r : References} {name : TableName} {binding : Binding}
    (h : isPlaceholder name.name = false) (hcte : r.cteOf? name = some binding)
    (alias? : Option Text) :
    r.bindTable name alias? =
      { r with aliases := Keyed.put (alias?.getD name.name).lower binding r.aliases } := by
  rw [bindTable, if_neg (by simp [h])]
  simp only
  rw [← cteOf?, hcte]

theorem bindTable_of_table {r : References} {name : TableName}
    (h : isPlaceholder name.name = false) (hcte : r.cteOf? name = none) (alias? : Option Text) :
    r.bindTable name alias? =
      { r with
        tables := r.tables ++ [(name.schema.getD defaultSchema, name.name)]
        aliases := Keyed.put (alias?.getD name.name).lower (Binding.ofTable name) r.aliases } := by
  rw [bindTable, if_neg (by simp [h])]
  simp only
  rw [← cteOf?, hcte]
  rfl

theorem ctes_bindTable (r : References) (name : TableName) (alias? : Option Text) :
    (r.bindTable name alias?).ctes = r.ctes := by
  by_cases hplaceholder : isPlaceholder name.name = true
  · rw [bindTable_of_placeholder hplaceholder]
  · have hname : isPlaceholder name.name = false := by simpa using hplaceholder
    cases hcte : r.cteOf? name with
    | none => rw [bindTable_of_table hname hcte]
    | some binding => rw [bindTable_of_cte hname hcte]

theorem lookup_ctes_visit (r : References) (v : Visit) (key : Text) :
    (r.visit v).ctes.lookup key =
      if v.cte?.any (·.name.lower == key) then v.cte?.map Binding.ofDeclared
      else r.ctes.lookup key := by
  cases v with
  | cte c =>
      change (Keyed.put c.name.lower (Binding.ofDeclared c) r.ctes).lookup key = _
      rw [Keyed.lookup_put]
      by_cases hkey : key = c.name.lower
      · simp [Visit.cte?, hkey]
      · simp [Visit.cte?, hkey, Ne.symm hkey]
  | relation relation =>
      cases relation with
      | table name alias? => exact congrArg (List.lookup key) (ctes_bindTable r name alias?)
      | derived q alias? => cases alias? <;> rfl
      | nested s => rfl
      | other alias? => rfl
  | column c => rfl
  | query q => rfl

/-- A name stands for what was bound under it last. -/
theorem lookup_aliases_visit (r : References) (v : Visit) (key : Text) :
    (r.visit v).aliases.lookup key =
      if v.key? = some key then r.binding? v else r.aliases.lookup key := by
  cases v with
  | cte c =>
      change (Keyed.put c.name.lower (Binding.ofDeclared c) r.aliases).lookup key = _
      rw [Keyed.lookup_put]
      simp [Visit.key?, binding?, eq_comm]
  | relation relation =>
      cases relation with
      | table name alias? =>
          change (r.bindTable name alias?).aliases.lookup key = _
          by_cases hplaceholder : isPlaceholder name.name = true
          · simp [bindTable_of_placeholder hplaceholder, Visit.key?, hplaceholder]
          · have hname : isPlaceholder name.name = false := by simpa using hplaceholder
            cases hcte : r.cteOf? name with
            | none =>
                rw [bindTable_of_table hname hcte, Keyed.lookup_put]
                simp [Visit.key?, binding?, tableBinding, hname, hcte, eq_comm]
            | some binding =>
                rw [bindTable_of_cte hname hcte, Keyed.lookup_put]
                simp [Visit.key?, binding?, tableBinding, hname, hcte, eq_comm]
      | derived q alias? =>
          cases alias? with
          | none => rfl
          | some name =>
              change (Keyed.put name.lower _ r.aliases).lookup key = _
              rw [Keyed.lookup_put]
              simp [Visit.key?, binding?, eq_comm]
      | nested s => rfl
      | other alias? => rfl
  | column c => rfl
  | query q => rfl

theorem isSome_binding? (r : References) (v : Visit) : (r.binding? v).isSome = v.key?.isSome := by
  cases v with
  | relation relation =>
      cases relation with
      | table name alias? =>
          rw [binding?, Visit.key?]
          cases isPlaceholder name.name <;> rfl
      | derived q alias? => cases alias? <;> rfl
      | nested s => rfl
      | other alias? => rfl
  | _ => rfl

theorem lookup_aliases_table {name : TableName} (h : isPlaceholder name.name = false)
    (r : References) (alias? : Option Text) :
    (r.visit (.relation (.table name alias?))).aliases.lookup (alias?.getD name.name).lower =
      some (r.tableBinding name) := by
  rw [lookup_aliases_visit]
  simp [Visit.key?, binding?, h]

theorem tables_visit (r : References) (v : Visit) :
    (r.visit v).tables = r.tables ++ (r.listed? v).toList := by
  cases v with
  | cte c => simp [visit, bindCte, listed?]
  | relation relation =>
      cases relation with
      | table name alias? =>
          change (r.bindTable name alias?).tables = _
          by_cases hplaceholder : isPlaceholder name.name = true
          · simp [bindTable_of_placeholder hplaceholder, listed?, hplaceholder]
          · have hname : isPlaceholder name.name = false := by simpa using hplaceholder
            cases hcte : r.cteOf? name with
            | none => simp [bindTable_of_table hname hcte, listed?, hname, hcte]
            | some binding => simp [bindTable_of_cte hname hcte, listed?, hcte]
      | derived q alias? => cases alias? <;> simp [visit, listed?]
      | nested s => simp [visit, listed?]
      | other alias? => simp [visit, listed?]
  | column c => simp [visit, listed?]
  | query q => simp [visit, listed?]

/-- The common table expression known under a name is the last one met that has it. -/
theorem lookup_ctes_foldl (visits : List Visit) (r : References) (key : Text) :
    (visits.foldl visit r).ctes.lookup key =
      (((ctesMet visits).reverse.find? (·.name.lower == key)).map Binding.ofDeclared).or
        (r.ctes.lookup key) := by
  induction visits generalizing r with
  | nil => rfl
  | cons v rest ih =>
      rw [List.foldl_cons, ih, lookup_ctes_visit]
      cases v with
      | cte c =>
          have hmet : ctesMet (.cte c :: rest) = c :: ctesMet rest := rfl
          rw [hmet, List.reverse_cons, List.find?_append]
          cases (ctesMet rest).reverse.find? (·.name.lower == key) with
          | some d => rfl
          | none =>
              by_cases hkey : c.name.lower == key <;> simp [Visit.cte?, hkey]
      | relation relation => rfl
      | column c => rfl
      | query q => rfl

theorem lookup_aliases_foldl_of_ne {visits : List Visit} {key : Text}
    (h : ∀ v ∈ visits, v.key? ≠ some key) (r : References) :
    (visits.foldl visit r).aliases.lookup key = r.aliases.lookup key := by
  induction visits generalizing r with
  | nil => rfl
  | cons v rest ih =>
      have hv := h v List.mem_cons_self
      have hrest := fun w hw => h w (List.mem_cons_of_mem v hw)
      rw [List.foldl_cons, ih hrest, lookup_aliases_visit, if_neg hv]

/-- A name stands for what was last met under it. -/
theorem lookup_aliases_foldl {before after : List Visit} {v : Visit} {key : Text}
    (hv : v.key? = some key) (hafter : ∀ w ∈ after, w.key? ≠ some key) (r : References) :
    ((before ++ v :: after).foldl visit r).aliases.lookup key =
      (before.foldl visit r).binding? v := by
  rw [List.foldl_append, List.foldl_cons, lookup_aliases_foldl_of_ne hafter, lookup_aliases_visit,
    if_pos hv]

end References

end SqlInsight
