/-
What whoever saves a document may rely on: which documents there are texts for, and what is read of
such a text. Of the values only those are looked at that settings have.
-/
import SqlInsight.Keyed
import SqlInsight.Toml.Number

namespace SqlInsight.Toml

/-- A value of the kinds that stand behind a key on one line. -/
inductive IsScalar : Toml → Prop
  | string (t : Text) : IsScalar (.string t)
  | natural (n : Nat) : IsScalar (.integer n)
  | boolean (b : Bool) : IsScalar (.boolean b)
  | strings (items : List Text) : IsScalar (.array (items.map .string))

theorem mapM_string? (items : List Text) : (items.map string).mapM string? = some items := by
  have hitem : string? ∘ string = fun t => pure t := rfl
  rw [List.mapM_map, hitem, List.mapM_pure, List.map_id']
  rfl

/-- A document of such values and of tables, with so many levels at most. All keys of a table are
different, and its values come before the tables in it. -/
def IsPlain : (levels : Nat) → List (Text × Toml) → Prop
  | 0, _ => False
  | levels + 1, members =>
      (members.map Prod.fst).Nodup ∧ ∃ values tables, members = values ++ tables ∧
        (∀ entry ∈ values, entry.2.IsScalar) ∧
          ∀ entry ∈ tables, ∃ inner, entry.2 = .table inner ∧ IsPlain levels inner

theorem isPlain_values {values : List (Text × Toml)} (hnodup : (values.map Prod.fst).Nodup)
    (hvalues : ∀ entry ∈ values, entry.2.IsScalar) (levels : Nat) :
    IsPlain (levels + 1) values :=
  ⟨hnodup, values, [], (List.append_nil values).symm, hvalues, List.forall_mem_nil _⟩

/-- All integers of a document fit 64 bits with a sign. -/
def Fits : List (Text × Toml) → Prop
  | [] => True
  | (_, .integer n) :: rest => (-signedBound ≤ n ∧ n < signedBound) ∧ Fits rest
  | (_, .table inner) :: rest => Fits inner ∧ Fits rest
  | _ :: rest => Fits rest

/-- The members of two documents are the same but for their order, and so are those of the tables in
them. -/
inductive Rearranged : List (Text × Toml) → List (Text × Toml) → Prop
  | nil : Rearranged [] []
  | value (key : Text) (v : Toml) {members members' : List (Text × Toml)} :
      Rearranged members members' → Rearranged ((key, v) :: members) ((key, v) :: members')
  | table (key : Text) {inner inner' members members' : List (Text × Toml)} :
      Rearranged inner inner' → Rearranged members members' →
        Rearranged ((key, .table inner) :: members) ((key, .table inner') :: members')
  | perm {members members' members'' : List (Text × Toml)} :
      Rearranged members members' → members'.Perm members'' → Rearranged members members''

/-- There is a text for a document just if its integers fit. -/
def WritesFitting (print? : List (Text × Toml) → Option Text) : Prop :=
  ∀ members, IsPlain 3 members → ((print? members).isSome ↔ Fits members)

/-- The text of a document is read as that document, with the members in any order. -/
def ReadsWritten (print? : List (Text × Toml) → Option Text)
    (ofText? : Text → Option (List (Text × Toml))) : Prop :=
  ∀ members t, IsPlain 3 members → print? members = some t →
    ∃ members', ofText? t = some members' ∧ Rearranged members members'

theorem Rearranged.refl (members : List (Text × Toml)) : Rearranged members members := by
  induction members with
  | nil => exact .nil
  | cons entry rest ih => exact .value entry.1 entry.2 ih

namespace Rearranged

variable {members members' inner : List (Text × Toml)} {key : Text}

theorem keys_perm (h : Rearranged members members') :
    (members.map Prod.fst).Perm (members'.map Prod.fst) := by
  induction h with
  | nil => exact .nil
  | value key v _ ih => exact ih.cons key
  | table key _ _ _ ih => exact ih.cons key
  | perm _ hperm ih => exact ih.trans (hperm.map Prod.fst)

/-- Under each key stands what stood there, or a table with the same members. -/
theorem lookup (h : Rearranged members members') (hnodup : (members.map Prod.fst).Nodup)
    (key : Text) :
    members'.lookup key = members.lookup key ∨ ∃ inner inner',
      members.lookup key = some (.table inner) ∧ members'.lookup key = some (.table inner') ∧
        Rearranged inner inner' := by
  induction h with
  | nil => exact Or.inl rfl
  | value other v _ ih =>
      rw [List.lookup_cons, List.lookup_cons]
      cases key == other with
      | true => exact Or.inl rfl
      | false => exact ih (List.nodup_cons.mp hnodup).2
  | table other hinner _ _ ih =>
      rw [List.lookup_cons, List.lookup_cons]
      cases key == other with
      | true => exact Or.inr ⟨_, _, rfl, rfl, hinner⟩
      | false => exact ih (List.nodup_cons.mp hnodup).2
  | perm hrest hperm ih =>
      rw [Keyed.lookup_perm (hrest.keys_perm.nodup hnodup) hperm]
      exact ih hnodup

theorem lookup_eq_none (h : Rearranged members members')
    (hnodup : (members.map Prod.fst).Nodup) (hkey : members.lookup key = none) :
    members'.lookup key = none := by
  rcases h.lookup hnodup key with hsame | ⟨inner, inner', htable, -, -⟩
  · rw [hsame, hkey]
  · rw [hkey] at htable
    contradiction

theorem lookup_eq_some (h : Rearranged members members')
    (hnodup : (members.map Prod.fst).Nodup) {v : Toml} (hkey : members.lookup key = some v)
    (hv : v.IsScalar) : members'.lookup key = some v := by
  rcases h.lookup hnodup key with hsame | ⟨inner, inner', htable, -, -⟩
  · rw [hsame, hkey]
  · rw [hkey] at htable
    obtain rfl := Option.some.inj htable
    cases hv

theorem lookup_eq_table (h : Rearranged members members')
    (hnodup : (members.map Prod.fst).Nodup) (key : Text)
    (hkey : members.lookup key = some (.table inner)) :
    ∃ inner', members'.lookup key = some (.table inner') ∧ Rearranged inner inner' := by
  rcases h.lookup hnodup key with hsame | ⟨inner, inner', htable, htable', hinner⟩
  · exact ⟨_, by rw [hsame, hkey], .refl _⟩
  · rw [hkey] at htable
    cases htable
    exact ⟨inner', htable', hinner⟩

/-- Where no table is, only the order may differ. -/
theorem perm_of_isScalar (h : Rearranged members members')
    (hvalues : ∀ entry ∈ members, entry.2.IsScalar) : members.Perm members' := by
  induction h with
  | nil => exact .nil
  | value key v _ ih =>
      exact (ih fun entry hentry => hvalues entry (List.mem_cons_of_mem _ hentry)).cons _
  | table key _ _ _ _ => cases hvalues _ List.mem_cons_self
  | perm _ hperm ih => exact (ih hvalues).trans hperm

end Rearranged

end SqlInsight.Toml
