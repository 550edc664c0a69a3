/-
Lists of values under keys. Each key stands once, in the place where it was first put, with the
value that was put last.
-/
namespace SqlInsight.Keyed

variable {κ α : Type} [DecidableEq κ]

/-- Put a value under a key, in the place of the value that is there already. -/
def put (key : κ) (value : α) : List (κ × α) → List (κ × α)
  | [] => [(key, value)]
  | entry :: rest =>
      if entry.1 = key then (key, value) :: rest else entry :: put key value rest

theorem lookup_put [BEq κ] [LawfulBEq κ] (key : κ) (value : α) (list : List (κ × α))
    (other : κ) :
    (put key value list).lookup other = if other = key then some value else list.lookup other := by
  induction list with
  | nil =>
      by_cases h : other = key
      · simp [put, h]
      · simp [put, List.lookup_cons, h, beq_false_of_ne h]
  | cons entry rest ih =>
      obtain ⟨k, v⟩ := entry
      by_cases hk : k = key
      · subst hk
        by_cases h : other = k
        · simp [put, h]
        · simp [put, List.lookup_cons, h, beq_false_of_ne h]
      · by_cases ho : other = k
        · subst ho
          simp [put, hk]
        · simp [put, List.lookup_cons, hk, beq_false_of_ne ho, ih]

theorem lookup_of_mem {κ α : Type} [BEq κ] [LawfulBEq κ] {key : κ} {value : α}
    {list : List (κ × α)} (h : (list.map Prod.fst).Nodup)
    (hmem : (key, value) ∈ list) : list.lookup key = some value := by
  obtain ⟨before, after, rfl⟩ := List.append_of_mem hmem
  rw [List.lookup_eq_some_iff]
  refine ⟨before, after, rfl, fun entry hentry => ?_⟩
  rw [List.map_append, List.nodup_append] at h
  rw [bne_iff_ne]
  exact (h.2.2 _ (List.mem_map_of_mem hentry) _ List.mem_cons_self).symm

/-- Where each key stands once, the order does not matter for what is found. -/
theorem lookup_perm {κ α : Type} [BEq κ] [LawfulBEq κ] {list list' : List (κ × α)}
    (hnodup : (list.map Prod.fst).Nodup) (hperm : list.Perm list') (key : κ) :
    list'.lookup key = list.lookup key := by
  have hnodup' : (list'.map Prod.fst).Nodup := (hperm.map Prod.fst).nodup hnodup
  cases hlookup : list.lookup key with
  | none =>
      rw [List.lookup_eq_none_iff] at hlookup ⊢
      exact fun entry hentry => hlookup entry (hperm.mem_iff.mpr hentry)
  | some value =>
      obtain ⟨before, after, rfl, -⟩ := List.lookup_eq_some_iff.mp hlookup
      exact lookup_of_mem hnodup' (hperm.mem_iff.mp (List.mem_append_right _ List.mem_cons_self))

end SqlInsight.Keyed
