/-
What is bound for what is met. A walk through statements meets common table expressions, tables and
derived tables, and so does a search in a text that cannot be read; either way each name is bound to
what it was last met as. Every step keeps the references coherent: a name of a table stands for one
that is listed, and the common table expressions go by their own names.
-/
import SqlInsight.Proofs.Completion.AliasColumns
import SqlInsight.Proofs.References.Names

namespace SqlInsight

open Outline

namespace Keyed

variable {κ α : Type} [DecidableEq κ] {key : κ} {value : α} {list : List (κ × α)}

theorem mem_put_self (key : κ) (value : α) (list : List (κ × α)) :
    (key, value) ∈ put key value list := by
  induction list with
  | nil => exact List.mem_singleton_self _
  | cons entry rest ih =>
      rw [put]
      split
      · exact List.mem_cons_self
      · exact List.mem_cons_of_mem entry ih

theorem nodup_put (h : (list.map Prod.fst).Nodup) :
    ((put key value list).map Prod.fst).Nodup := by
  induction list with
  | nil => exact List.pairwise_singleton _ _
  | cons entry rest ih =>
      obtain ⟨hfresh, hrest⟩ := List.nodup_cons.mp h
      rw [put]
      split
      · rename_i hsame
        exact List.nodup_cons.mpr ⟨hsame ▸ hfresh, hrest⟩
      · rename_i hother
        refine List.nodup_cons.mpr ⟨fun hmem => ?_, ih hrest⟩
        obtain ⟨found, hfound, hkey⟩ := List.mem_map.mp hmem
        rcases mem_put hfound with rfl | hold
        · exact hother hkey.symm
        · exact hfresh (hkey ▸ List.mem_map_of_mem hold)

end Keyed

namespace Outline.Visit

/-- The alias, or else the name, under which something that is met is bound. -/
def name? : Visit → Option Text
  | .cte c => some c.name
  | .relation (.table name alias?) =>
      if isPlaceholder name.name then none else some (alias?.getD name.name)
  | .relation (.derived _ alias?) => alias?
  | _ => none

/-- What something that is met behind `before` stands for. A table whose name gives no schema stands
for the last common table expression of its name met before, if there is one. -/
def meant? (before : List Visit) : Visit → Option Binding
  | .cte c => some (Binding.ofDeclared c)
  | .relation (.table name _) =>
      if isPlaceholder name.name then none
      else some (((Completion.met? before name).map Binding.ofDeclared).getD
        (Binding.ofTable name))
  | .relation (.derived q (some name)) => some (Binding.ofSubquery name q.outputColumns)
  | _ => none

theorem key?_eq (v : Visit) : v.key? = v.name?.map Text.lower := by
  cases v with
  | relation relation =>
      cases relation with
      | table name alias? =>
          rw [key?, name?]
          split <;> rfl
      | derived q alias? => cases alias? <;> rfl
      | nested s => rfl
      | other alias? => rfl
  | _ => rfl

theorem key?_eq_some_iff (v : Visit) (key : Text) :
    v.key? = some key ↔ ∃ name, v.name? = some name ∧ key = name.lower := by
  rw [key?_eq, Option.map_eq_some_iff]
  simp only [eq_comm]

end Outline.Visit

namespace References

/-- References that hang together: no name stands twice, an alias that stands for a table stands for
one that is listed, and a common table expression goes by its own name. -/
structure Coherent (r : References) : Prop where
  nodupAliases : (r.aliases.map Prod.fst).Nodup
  nodupCtes : (r.ctes.map Prod.fst).Nodup
  physical : ∀ key b, (key, b) ∈ r.aliases → b.isPhysical = true →
    (b.schema, b.table) ∈ r.tables
  ctes : ∀ key b, (key, b) ∈ r.ctes → b.kind = .cte ∧ b.table.lower = key

section Steps

variable {r : References}

theorem coherent_nothing : Coherent {} where
  nodupAliases := List.nodup_nil
  nodupCtes := List.nodup_nil
  physical _ _ h := absurd h List.not_mem_nil
  ctes _ _ h := absurd h List.not_mem_nil

theorem Coherent.putAlias (h : r.Coherent) (key : Text) {b : Binding}
    (hb : b.isPhysical = true → (b.schema, b.table) ∈ r.tables) :
    { r with aliases := Keyed.put key b r.aliases }.Coherent where
  nodupAliases := Keyed.nodup_put h.nodupAliases
  nodupCtes := h.nodupCtes
  physical key' b' hmem hphysical := by
    rcases Keyed.mem_put hmem with heq | hold
    · obtain ⟨-, rfl⟩ := Prod.mk.inj heq
      exact hb hphysical
    · exact h.physical key' b' hold hphysical
  ctes := h.ctes

theorem Coherent.bindCte (h : r.Coherent) (name : Text) (columns : List Text)
    (source : Option TableName) : (r.bindCte name columns source).Coherent := by
  have hput := h.putAlias name.lower (b := Binding.ofCte name columns source)
    fun hphysical => by contradiction
  refine ⟨hput.nodupAliases, Keyed.nodup_put h.nodupCtes, hput.physical, ?_⟩
  intro key b hmem
  rcases Keyed.mem_put hmem with heq | hold
  · obtain ⟨rfl, rfl⟩ := Prod.mk.inj heq
    exact ⟨rfl, rfl⟩
  · exact h.ctes key b hold

theorem Coherent.bindTable (h : r.Coherent) (name : TableName) (alias? : Option Text) :
    (r.bindTable name alias?).Coherent := by
  by_cases hplaceholder : isPlaceholder name.name = true
  · rw [bindTable_of_placeholder hplaceholder]
    exact h
  · have hname : isPlaceholder name.name = false := by simpa using hplaceholder
    cases hcte : r.cteOf? name with
    | none =>
        have hlisted : { r with tables :=
            r.tables ++ [(name.schema.getD defaultSchema, name.name)] }.Coherent :=
          ⟨h.nodupAliases, h.nodupCtes,
            fun key b hmem hb => List.mem_append_left _ (h.physical key b hmem hb), h.ctes⟩
        rw [bindTable_of_table hname hcte]
        exact hlisted.putAlias _ fun _ => List.mem_append_right _ List.mem_cons_self
    | some binding =>
        obtain ⟨hkind, -⟩ := h.ctes _ _ (mem_of_cteOf? hcte)
        rw [bindTable_of_cte hname hcte]
        exact h.putAlias _ fun hphysical =>
          absurd hphysical (by simp [Binding.isPhysical_of_kind_cte hkind])

/-- A step keeps references coherent. -/
theorem Coherent.visit (h : r.Coherent) (v : Visit) : (r.visit v).Coherent := by
  cases v with
  | cte c => exact h.bindCte _ _ _
  | relation relation =>
      cases relation with
      | table name alias? => exact h.bindTable name alias?
      | derived query alias? =>
          cases alias? with
          | none => exact h
          | some name => exact h.putAlias _ fun hphysical => by contradiction
      | nested s => exact h
      | other alias? => exact h
  | column c => exact h
  | query q => exact h

theorem Coherent.foldl (h : r.Coherent) (visits : List Visit) :
    (visits.foldl References.visit r).Coherent :=
  List.foldlRecOn visits References.visit h fun _ hr v _ => hr.visit v

/-- What is bound as a common table expression is known as one behind the step. -/
theorem exists_mem_ctes_visit {v : Visit} {b : Binding} (hv : r.binding? v = some b)
    (hb : b.kind = .cte) : ∃ name, (name, b) ∈ (r.visit v).ctes := by
  cases v with
  | cte c =>
      obtain rfl := Option.some.inj hv
      exact ⟨_, Keyed.mem_put_self _ _ _⟩
  | relation relation =>
      cases relation with
      | table name alias? =>
          rw [binding?] at hv
          split at hv
          · contradiction
          · obtain rfl := Option.some.inj hv
            change ∃ known, _ ∈ (r.bindTable name alias?).ctes
            rw [ctes_bindTable]
            unfold tableBinding at hb ⊢
            cases hcte : r.cteOf? name with
            | none =>
                rw [hcte, Option.getD_none] at hb
                have hphysical := Binding.isPhysical_ofTable name
                rw [Binding.isPhysical_of_kind_cte hb] at hphysical
                contradiction
            | some binding => exact ⟨_, mem_of_cteOf? hcte⟩
      | derived query alias? =>
          cases alias? with
          | none => contradiction
          | some name =>
              obtain rfl := Option.some.inj hv
              contradiction
      | nested s => contradiction
      | other alias? => contradiction
  | column c => contradiction
  | query q => contradiction

end Steps

theorem binding?_foldl (before : List Visit) (v : Visit) :
    (before.foldl visit {}).binding? v = v.meant? before := by
  cases v with
  | relation relation =>
      cases relation with
      | table name alias? =>
          rw [binding?, tableBinding, Completion.cteOf?_foldl]
          rfl
      | derived query alias? => cases alias? <;> rfl
      | nested s => rfl
      | other alias? => rfl
  | _ => rfl

/-- Behind `before` comes the last of what is met that is bound under a name with the key. -/
structure BindsLast (visits : List Visit) (key : Text) (before : List Visit) (v : Visit) :
    Prop where
  name : ∃ name, v.name? = some name ∧ key = name.lower
  last : ∃ after, visits = before ++ v :: after ∧
    ∀ w ∈ after, ∀ name, w.name? = some name → key ≠ name.lower

theorem exists_bindsLast {visits : List Visit} {key : Text}
    (h : ∃ v ∈ visits, v.key? = some key) : ∃ before v, BindsLast visits key before v := by
  induction visits using List.reverseRecOn with
  | nil =>
      obtain ⟨v, hv, -⟩ := h
      exact absurd hv List.not_mem_nil
  | append_singleton visits last ih =>
      by_cases hlast : last.key? = some key
      · exact ⟨visits, last, (last.key?_eq_some_iff key).mp hlast, [], rfl,
          fun w hw => absurd hw List.not_mem_nil⟩
      · have hbefore : ∃ v ∈ visits, v.key? = some key := by
          obtain ⟨v, hv, hkey⟩ := h
          rcases List.mem_append.mp hv with hv | hv
          · exact ⟨v, hv, hkey⟩
          · rw [List.mem_singleton.mp hv] at hkey
            contradiction
        obtain ⟨before, v, hname, after, rfl, hafter⟩ := ih hbefore
        refine ⟨before, v, hname, after ++ [last], by simp, fun w hw name hw' hkey => ?_⟩
        rcases List.mem_append.mp hw with hw | hw
        · exact hafter w hw name hw' hkey
        · rw [List.mem_singleton.mp hw] at hw'
          exact hlast ((last.key?_eq_some_iff key).mpr ⟨name, hw', hkey⟩)

theorem BindsLast.lookup {visits before : List Visit} {key : Text} {v : Visit}
    (h : BindsLast visits key before v) :
    ∃ b, v.meant? before = some b ∧ (visits.foldl visit {}).aliases.lookup key = some b := by
  obtain ⟨after, rfl, hafter⟩ := h.last
  have hkey := (v.key?_eq_some_iff key).mpr h.name
  have hbound : ∀ w ∈ after, w.key? ≠ some key := by
    intro w hw hw'
    obtain ⟨name, hname, hsame⟩ := (w.key?_eq_some_iff key).mp hw'
    exact hafter w hw name hname hsame
  have hsome := isSome_binding? (before.foldl visit {}) v
  rw [lookup_aliases_foldl hkey hbound]
  rw [hkey, binding?_foldl, Option.isSome_some] at hsome
  obtain ⟨b, hb⟩ := Option.isSome_iff_exists.mp hsome
  rw [binding?_foldl, hb]
  exact ⟨b, rfl, rfl⟩

/-- References that account for what is met: they are coherent, each name is bound under the alias
or the name of the last that is met with its key, and stands for what that means; and what a name
that stands for a common table expression stands for was known as one when the name was bound. -/
structure Accounts (visits : List Visit) (r : References) : Prop extends r.Coherent where
  run : r = visits.foldl visit {}
  bound : ∀ key b, (key, b) ∈ r.aliases →
    ∃ before v, BindsLast visits key before v ∧ v.meant? before = some b
  last : ∀ key before v, BindsLast visits key before v →
    ∃ b, v.meant? before = some b ∧ r.aliases.lookup key = some b
  copied : ∀ key b, (key, b) ∈ r.aliases → b.kind = .cte →
    ∃ before v, BindsLast visits key before v ∧
      ∃ name, (name, b) ∈ ((before ++ [v]).foldl visit {}).ctes

theorem accounts_foldl (visits : List Visit) : Accounts visits (visits.foldl visit {}) := by
  have hcoherent : (visits.foldl visit {}).Coherent := coherent_nothing.foldl visits
  have hbound : ∀ key b, (key, b) ∈ (visits.foldl visit {}).aliases →
      ∃ before v, BindsLast visits key before v ∧ v.meant? before = some b := by
    intro key b hmem
    have hlookup := Keyed.lookup_of_mem hcoherent.nodupAliases hmem
    have hmet : ∃ v ∈ visits, v.key? = some key := by
      by_contra hnone
      have hfree : ∀ v ∈ visits, v.key? ≠ some key := fun v hv hkey => hnone ⟨v, hv, hkey⟩
      rw [lookup_aliases_foldl_of_ne hfree] at hlookup
      contradiction
    obtain ⟨before, v, hlast⟩ := exists_bindsLast hmet
    obtain ⟨found, hmeant, hfound⟩ := hlast.lookup
    obtain rfl : found = b := Option.some.inj (hfound.symm.trans hlookup)
    exact ⟨before, v, hlast, hmeant⟩
  refine ⟨hcoherent, rfl, hbound, fun _ _ _ => BindsLast.lookup, fun key b hmem hkind => ?_⟩
  obtain ⟨before, v, hlast, hmeant⟩ := hbound key b hmem
  refine ⟨before, v, hlast, ?_⟩
  rw [List.foldl_append]
  exact exists_mem_ctes_visit ((binding?_foldl before v).trans hmeant) hkind

/-- What the introduction of a common table expression in a text is met as: its query is not
read. -/
def CteHead.visit (head : CteHead) : Visit :=
  .cte (.mk (Name.unquote head.name) ((head.columns.map commaNames).getD []) (.mk [] [] []))

/-- The tables that a list with commas between them is met as. -/
def tablesIn (t : Text) : (fuel : Nat) → List Visit
  | 0 => []
  | fuel + 1 =>
      match Text.dottedName? 3 t.trimStart with
      | none => []
      | some (name, afterName) =>
          match TableName.ofParts? (splitQualified name) with
          | none => []
          | some table =>
              if isStopWord table.name then []
              else
                let alias? := (aliasAfter? afterName).filter fun a => !isStopWord a.1
                .relation (.table table (alias?.map fun a => Name.unquote a.1)) ::
                  match Text.trimStart ((alias?.map Prod.snd).getD afterName) with
                  | ',' :: more => tablesIn more fuel
                  | _ => []

/-- What a search in a text that cannot be read meets: the common table expressions, and then the
tables of each list. -/
def metIn (t : Text) : List Visit :=
  (cteHeads (t.mask .literals)).map CteHead.visit ++
    (Text.allMatches tableListAt? (t.mask .literals)).flatMap fun list =>
      tablesIn list list.length

theorem bindHead_eq_visit (r : References) (head : CteHead) :
    r.bindHead head = r.visit head.visit := by
  rw [bindHead, CteHead.visit]
  generalize (head.columns.map commaNames).getD [] = columns
  cases columns <;> rfl

theorem scanTables_eq_foldl (r : References) (t : Text) (fuel : Nat) :
    r.scanTables t fuel = (tablesIn t fuel).foldl visit r := by
  induction fuel generalizing r t with
  | zero => rfl
  | succ fuel ih =>
      have hrest (r : References) (behind : Text) :
          (match behind with
            | ',' :: more => r.scanTables more fuel
            | _ => r) =
          (match behind with
            | ',' :: more => tablesIn more fuel
            | _ => []).foldl visit r := by
        split
        · exact ih r _
        · rfl
      rw [scanTables, tablesIn]
      cases Text.dottedName? 3 t.trimStart with
      | none => rfl
      | some found =>
          obtain ⟨name, afterName⟩ := found
          simp only
          cases TableName.ofParts? (splitQualified name) with
          | none => rfl
          | some table =>
              simp only
              by_cases hstop : isStopWord table.name = true
              · rw [if_pos hstop, if_pos hstop, List.foldl_nil]
              · rw [if_neg hstop, if_neg hstop, List.foldl_cons]
                exact hrest _ _

/-- A search in a text binds what it meets as a walk does. -/
theorem ofText_eq (t : Text) : ofText t = (metIn t).foldl visit {} := by
  have hheads : (cteHeads (t.mask .literals)).foldl bindHead {} =
      ((cteHeads (t.mask .literals)).map CteHead.visit).foldl visit {} := by
    rw [List.foldl_map]
    exact List.foldl_ext _ _ _ fun r head _ => bindHead_eq_visit r head
  rw [ofText, metIn, List.foldl_append, List.foldl_flatMap]
  simp only [scanTables_eq_foldl, hheads]

/-- The references of statements account for what the walk through them meets, and those of a text
for what the search in it meets. -/
theorem bound_as_met (ss : List Statement) (t : Text) :
    Accounts (walk ss) (ofStatements ss) ∧ Accounts (metIn t) (ofText t) := by
  rw [ofStatements_eq, ofText_eq]
  exact ⟨accounts_foldl (walk ss), accounts_foldl (metIn t)⟩

end References

end SqlInsight
