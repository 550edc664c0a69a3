/-
Records some of whose members are left out. A record reads the members that are written, and each
field of it finds its own; so a field is read from its member, if that is written, and has its
default otherwise.
-/
import SqlInsight.Json.Record

namespace SqlInsight.Json

/-- A member that a record can have, and whether it is written. -/
structure Member where
  name : String
  isGiven : Bool
  value : Json

def Member.value? (m : Member) : Option Json :=
  if m.isGiven then some m.value else none

@[simp] theorem Member.value?_given (name : String) (value : Json) :
    (Member.mk name true value).value? = some value := rfl

@[simp] theorem Member.map_value?_getD {α : Type} (m : Member) (read : Json → α) (default : α) :
    (m.value?.map read).getD default = if m.isGiven then read m.value else default := by
  cases h : m.isGiven <;> simp [value?, h]

/-- The fields of the members that are written. -/
def given (members : List Member) : List (String × Json) :=
  (members.filter Member.isGiven).map fun m => (m.name, m.value)

def written (members : List Member) : Json :=
  .object (given members)

theorem given_cons (m : Member) (members : List Member) :
    given (m :: members) =
      (if m.isGiven then [(m.name, m.value)] else []) ++ given members := by
  cases h : m.isGiven <;> simp [given, h]

theorem name_mem_of_mem_given {members : List Member} {field : String × Json}
    (h : field ∈ given members) : field.1 ∈ members.map Member.name := by
  obtain ⟨m, hm, rfl⟩ := List.mem_map.mp h
  exact List.mem_map_of_mem (List.mem_filter.mp hm).1

theorem nodup_given {members : List Member} (h : (members.map Member.name).Nodup) :
    ((given members).map Prod.fst).Nodup := by
  rw [given, List.map_map]
  exact h.sublist (List.filter_sublist.map _)

/-- A record has the members that are written. -/
theorem record?_written {members : List Member} (h : (members.map Member.name).Nodup) :
    record? (members.map Member.name) (written members) = some (given members) := by
  have hall : ((given members).filter fun m => (members.map Member.name).contains m.1) =
      given members := by
    rw [List.filter_eq_self]
    intro field hfield
    exact List.contains_iff_mem.mpr (name_mem_of_mem_given hfield)
  simp only [written, record?, hall, nodup_given h, ↓reduceIte]

/-- A field finds its own member. -/
theorem lookup_given {members : List Member} (h : (members.map Member.name).Nodup)
    (name : String) :
    (given members).lookup name = (members.find? (·.name == name)).bind Member.value? := by
  induction members with
  | nil => rfl
  | cons m rest ih =>
      obtain ⟨hfresh, hrest⟩ := List.nodup_cons.mp h
      rw [given_cons]
      by_cases hname : m.name = name
      · have hnone : (given rest).lookup name = none := by
          rw [List.lookup_eq_none_iff]
          intro field hfield
          have hmem := name_mem_of_mem_given hfield
          rw [bne_iff_ne]
          rintro rfl
          exact hfresh (hname ▸ hmem)
        cases hgiven : m.isGiven <;> simp [hname, hnone, Member.value?, hgiven]
      · have hother : (name == m.name) = false := beq_eq_false_iff_ne.mpr (Ne.symm hname)
        rw [List.find?_cons_of_neg (by simpa using hname), ← ih hrest]
        cases m.isGiven <;> simp [List.lookup_cons, hother]

section

variable {α : Type} {members : List Member} (h : (members.map Member.name).Nodup) (name : String)

include h

theorem required_given (read : Json → Option α) :
    required (given members) name read =
      ((members.find? (·.name == name)).bind Member.value?).bind read := by
  rw [required, lookup_given h]

/-- A field with a default has it when its member is not written. -/
theorem optional_given (default : α) (read : Json → Option α) :
    optional (given members) name default read =
      (((members.find? (·.name == name)).bind Member.value?).map read).getD (some default) := by
  rw [optional, lookup_given h]
  cases (members.find? (·.name == name)).bind Member.value? <;> rfl

end

@[simp] theorem text?_ofText (t : Text) : text? (ofText t) = some t := by
  simp [text?, ofText, string?]

@[simp] theorem nullable?_textOrNull (t : Option Text) :
    nullable? text? (textOrNull t) = some t := by
  cases t with
  | none => rfl
  | some t =>
      change (text? (ofText t)).map some = some (some t)
      rw [text?_ofText, Option.map_some]

@[simp] theorem bool?_bool (b : Bool) : bool? (.bool b) = some b := rfl

theorem below?_natural {bound n : Nat} (hbound : bound ≤ UInt64.size) :
    below? bound (.natural n) = if n < bound then some n else none := by
  rw [below?, natural?]
  by_cases hn : n < bound
  · rw [if_pos (by omega), if_pos hn]
    simp [hn]
  · rw [if_neg hn]
    split
    · simpa using hn
    · rfl

theorem list?_array {α : Type} (read : Json → Option α) (items : List Json) :
    list? read (.array items) = items.mapM read := rfl

theorem ite_bind {α β : Type} {p : Prop} [Decidable p] (a : α) (f : α → Option β) :
    (if p then some a else none).bind f = if p then f a else none := by
  split <;> rfl

/-- The items of a list are read one by one, and all of them have to fit. -/
theorem mapM_mapIdx {α β γ : Type} {read : β → Option γ} {f : Nat → α → β} {kept : Nat → α → γ}
    (fits : γ → Bool)
    (h : ∀ i x, read (f i x) = if fits (kept i x) then some (kept i x) else none) (xs : List α) :
    (xs.mapIdx f).mapM read =
      if (xs.mapIdx kept).all fits then some (xs.mapIdx kept) else none := by
  induction xs generalizing f kept with
  | nil => rfl
  | cons x rest ih =>
      have hrest := ih fun i => h (i + 1)
      by_cases hfirst : fits (kept 0 x) = true
      · simp [-List.all_eq_true, List.mapIdx_cons, h, hrest, hfirst, ite_bind]
      · simp [-List.all_eq_true, List.mapIdx_cons, h, hfirst]

/-- Items that are each read as they were written. -/
theorem mapM_mapIdx_some {α β γ : Type} {read : β → Option γ} {f : Nat → α → β}
    {kept : Nat → α → γ} (h : ∀ i x, read (f i x) = some (kept i x)) (xs : List α) :
    (xs.mapIdx f).mapM read = some (xs.mapIdx kept) := by
  rw [mapM_mapIdx (fun _ => true) h, if_pos (by simp)]

end SqlInsight.Json
