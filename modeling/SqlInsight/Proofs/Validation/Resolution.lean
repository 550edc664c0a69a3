/-
What an unqualified column comes to. It is missing if something is bound and nothing that is bound
in any scope may have it; and the innermost scope in which something may have it decides whether it
is ambiguous, which it is where two have it. What has no known columns keeps a column from being
missing, and never from being ambiguous.
-/
import SqlInsight.Validation.Checker

namespace SqlInsight.Validation

/-- The table `Users` of the default schema, with the one column `Id`. -/
def plainUsers : Schema.Table :=
  .base "dbo".toList "Users".toList [.plain "Id".toList "int".toList]

/-- The snapshot of that table alone. -/
def plainShop : Schema :=
  ⟨"Shop".toList, [plainUsers], []⟩

namespace Scope

/-- The bindings of a scope that have a column, in the order they are written. -/
def holders (scope : Scope) (column : Text) : List Bound :=
  scope.filter fun b => b.meaning.hasColumn? column == some true

/-- Nothing in a scope may have the column: nothing has it, and nothing is of unknown columns. -/
def Lacks (column : Text) (scope : Scope) : Prop :=
  ∀ b ∈ scope, b.meaning.hasColumn? column ≠ some true ∧ b.meaning ≠ .unknown

/-- A column is ambiguous among these bindings, of which there are several: they are those that have
it in the innermost scope in which something may have it. -/
def AmbiguousAmong (scopes : List Scope) (column : Text) (several : List Bound) : Prop :=
  ∃ inner scope outer, scopes = inner ++ scope :: outer ∧ (∀ s ∈ inner, Lacks column s) ∧
    several = scope.holders column ∧ 2 ≤ several.length

variable {scope : Scope} {scopes : List Scope} {column : Text} {labels : List Text}

theorem lacks_iff : Lacks column scope ↔
    scope.holders column = [] ∧ ∀ b ∈ scope, b.meaning ≠ .unknown := by
  have hnil : scope.holders column = [] ↔ ∀ b ∈ scope, b.meaning.hasColumn? column ≠ some true := by
    simp only [holders, List.filter_eq_nil_iff, beq_iff_eq, Ne]
  rw [hnil]
  exact ⟨fun h => ⟨fun b hb => (h b hb).1, fun b hb => (h b hb).2⟩,
    fun h b hb => ⟨h.1 b hb, h.2 b hb⟩⟩

theorem resolve?_eq (scope : Scope) (column : Text) : resolve? scope column =
    match scope.holders column with
    | [] => if scope.any fun b => b.meaning == .unknown then some .found else none
    | [_] => some .found
    | several => some (.ambiguous (several.map fun b => b.meaning.label)) := rfl

/-- A scope says nothing about a column that nothing in it may have. -/
theorem resolve?_eq_none_iff : resolve? scope column = none ↔ Lacks column scope := by
  rw [lacks_iff, resolve?_eq]
  cases scope.holders column with
  | nil => simp
  | cons first rest => cases rest <;> simp

theorem resolve?_ambiguous_iff : resolve? scope column = some (Resolution.ambiguous labels) ↔
    2 ≤ (scope.holders column).length ∧
      labels = (scope.holders column).map fun b => b.meaning.label := by
  rw [resolve?_eq]
  cases scope.holders column with
  | nil => simp
  | cons first rest =>
      cases rest with
      | nil => simp
      | cons second more => simp [eq_comm]

theorem resolve?_ne_missing : resolve? scope column ≠ some .missing := by
  unfold resolve?
  split
  · split <;> simp
  · simp
  · simp

/-- A column is missing if something is bound and nothing that is bound may have it. -/
theorem resolve_missing_iff : resolve scopes column = .missing ↔
    (∃ scope ∈ scopes, scope ≠ []) ∧ ∀ scope ∈ scopes, Lacks column scope := by
  have hempty : scopes.all List.isEmpty = false ↔ ∃ scope ∈ scopes, scope ≠ [] := by simp
  rw [← hempty, resolve]
  cases scopes.all List.isEmpty with
  | true => simp
  | false =>
      have hlacks : (scopes.findSome? fun scope => resolve? scope column) = none ↔
          ∀ scope ∈ scopes, Lacks column scope := by
        rw [List.findSome?_eq_none_iff]
        exact forall₂_congr fun scope _ => resolve?_eq_none_iff
      cases hfound : scopes.findSome? fun scope => resolve? scope column with
      | none => simpa [hfound] using hlacks
      | some r =>
          obtain ⟨scope, _, hscope⟩ := List.exists_of_findSome?_eq_some hfound
          have hr : r ≠ .missing := fun hr => resolve?_ne_missing (hr ▸ hscope)
          simpa [hfound, hr] using hlacks

/-- A column is ambiguous if it is so in the innermost scope in which something may have it. -/
theorem resolve_ambiguous_iff : resolve scopes column = .ambiguous labels ↔
    ∃ several, AmbiguousAmong scopes column several ∧
      labels = several.map fun b => b.meaning.label := by
  have hfound : (scopes.findSome? fun scope => resolve? scope column) =
      some (Resolution.ambiguous labels) ↔ ∃ several, AmbiguousAmong scopes column several ∧
        labels = several.map fun b => b.meaning.label := by
    simp only [List.findSome?_eq_some_iff, resolve?_eq_none_iff, resolve?_ambiguous_iff,
      AmbiguousAmong]
    constructor
    · rintro ⟨inner, scope, outer, hscopes, ⟨hseveral, hlabels⟩, hinner⟩
      exact ⟨_, ⟨inner, scope, outer, hscopes, hinner, rfl, hseveral⟩, hlabels⟩
    · rintro ⟨_, ⟨inner, scope, outer, hscopes, hinner, rfl, hseveral⟩, hlabels⟩
      exact ⟨inner, scope, outer, hscopes, ⟨hseveral, hlabels⟩, hinner⟩
  rw [← hfound, resolve]
  cases hempty : scopes.all List.isEmpty with
  | true =>
      have hnone : (scopes.findSome? fun scope => resolve? scope column) = none := by
        rw [List.findSome?_eq_none_iff]
        intro scope hscope
        rw [List.isEmpty_iff.mp (List.all_eq_true.mp hempty scope hscope)]
        rfl
      simp [hnone]
  | false =>
      cases scopes.findSome? fun scope => resolve? scope column <;> simp

end Scope

namespace Checker

/-- The message about a column that several bindings have, which names them in their order. -/
def ambiguousMessage (name : Text) (several : List Bound) : Text :=
  "Column '".toList ++ name ++ "' is ambiguous (found in ".toList
    ++ List.intercalate ", ".toList (several.map fun b => b.meaning.label) ++ [')']

/-- What the check of an unqualified column adds: nothing, or one finding, which is about the column
and says that it is missing or that it is ambiguous. -/
theorem exists_checkUnqualified (c : Checker) (name : Text) :
    ∃ added, (c.checkUnqualified name).findings = c.findings ++ added ∧ added.length ≤ 1 ∧
      (∀ f ∈ added, f.anchor = .identifier none name) ∧
      ((∃ f ∈ added, f.code = .columnNotFound) ↔
        (∃ scope ∈ c.scopes, scope ≠ []) ∧ ∀ scope ∈ c.scopes, Scope.Lacks name scope) ∧
      ∀ message, (∃ f ∈ added, f.code = .ambiguousColumn ∧ f.message = message) ↔
        ∃ several, Scope.AmbiguousAmong c.scopes name several ∧
          message = ambiguousMessage name several := by
  have hambiguous (message : Text) : (∃ several, Scope.AmbiguousAmong c.scopes name several ∧
      message = ambiguousMessage name several) ↔
      ∃ labels, Scope.resolve c.scopes name = .ambiguous labels ∧
        message = "Column '".toList ++ name ++ "' is ambiguous (found in ".toList
          ++ List.intercalate ", ".toList labels ++ [')'] := by
    simp only [Scope.resolve_ambiguous_iff]
    constructor
    · rintro ⟨several, hseveral, rfl⟩
      exact ⟨_, ⟨several, hseveral, rfl⟩, rfl⟩
    · rintro ⟨_, ⟨several, hseveral, rfl⟩, rfl⟩
      exact ⟨several, hseveral, rfl⟩
  simp only [hambiguous, ← Scope.resolve_missing_iff]
  unfold checkUnqualified
  cases Scope.resolve c.scopes name with
  | found => exact ⟨[], by simp⟩
  | ambiguous labels => exact ⟨[_], rfl, by simp [eq_comm]⟩
  | missing => exact ⟨[_], rfl, by simp⟩

end Checker

end SqlInsight.Validation
