/-
Options and lists related element by element. What is found in two lists by tests that agree on
related elements is related again, and so are the lists behind a stable sort.
-/
import Mathlib.Data.List.Forall2

theorem Option.Rel.bind {α β γ δ : Type} {P : α → β → Prop} {Q : γ → δ → Prop} {a : Option α}
    {b : Option β} {f : α → Option γ} {g : β → Option δ} (h : Option.Rel P a b)
    (hfg : ∀ x y, P x y → Option.Rel Q (f x) (g y)) : Option.Rel Q (a.bind f) (b.bind g) := by
  cases h with
  | none => exact .none
  | some h => exact hfg _ _ h

theorem Option.Rel.map {α β γ δ : Type} {P : α → β → Prop} {Q : γ → δ → Prop} {a : Option α}
    {b : Option β} {f : α → γ} {g : β → δ} (h : Option.Rel P a b)
    (hfg : ∀ x y, P x y → Q (f x) (g y)) : Option.Rel Q (a.map f) (b.map g) := by
  cases h with
  | none => exact .none
  | some h => exact .some (hfg _ _ h)

theorem Option.Rel.or {α β : Type} {P : α → β → Prop} {a a' : Option α} {b b' : Option β}
    (h : Option.Rel P a b) (h' : Option.Rel P a' b') : Option.Rel P (a.or a') (b.or b') := by
  cases h with
  | none => exact h'
  | some h => exact .some h

theorem Option.Rel.toList {α β : Type} {P : α → β → Prop} {a : Option α} {b : Option β}
    (h : Option.Rel P a b) : List.Forall₂ P a.toList b.toList := by
  cases h with
  | none => exact .nil
  | some h => exact .cons h .nil

theorem List.Forall₂.findSome? {α β γ δ : Type} {P : α → β → Prop} {Q : γ → δ → Prop}
    {xs : List α} {ys : List β} {f : α → Option γ} {g : β → Option δ} (h : List.Forall₂ P xs ys)
    (hfg : ∀ x y, P x y → Option.Rel Q (f x) (g y)) :
    Option.Rel Q (xs.findSome? f) (ys.findSome? g) := by
  induction h with
  | nil => exact .none
  | cons hxy _ ih =>
      rw [List.findSome?_cons, List.findSome?_cons]
      have hhead := hfg _ _ hxy
      revert hhead
      generalize f _ = a, g _ = b
      rintro (⟨h⟩ | -)
      · exact .some h
      · exact ih

theorem List.Forall₂.getLast? {α β : Type} {P : α → β → Prop} {xs : List α} {ys : List β}
    (h : List.Forall₂ P xs ys) : Option.Rel P xs.getLast? ys.getLast? := by
  induction h with
  | nil => exact .none
  | cons hxy _ ih =>
      rw [List.getLast?_cons, List.getLast?_cons]
      revert ih
      generalize List.getLast? _ = a, List.getLast? _ = b
      rintro (⟨h⟩ | -)
      · exact .some h
      · exact .some hxy

theorem Option.Rel.isSome {α β : Type} {P : α → β → Prop} {a : Option α} {b : Option β}
    (h : Option.Rel P a b) : b.isSome = a.isSome := by
  cases h with
  | none => rfl
  | some h => rfl

theorem List.Forall₂.head? {α β : Type} {P : α → β → Prop} {xs : List α} {ys : List β}
    (h : List.Forall₂ P xs ys) : Option.Rel P xs.head? ys.head? := by
  cases h with
  | nil => exact .none
  | cons hxy _ => exact .some hxy

section Tests

variable {α β : Type} {P : α → β → Prop} {xs : List α} {ys : List β} {p : α → Bool} {q : β → Bool}
  (h : List.Forall₂ P xs ys) (hpq : ∀ x y, P x y → q y = p x)

include h hpq

theorem List.Forall₂.filter : List.Forall₂ P (xs.filter p) (ys.filter q) :=
  List.rel_filter (fun x y hxy => Bool.eq_iff_iff.mp (hpq x y hxy).symm) h

theorem List.Forall₂.find? : Option.Rel P (xs.find? p) (ys.find? q) := by
  rw [← List.head?_filter, ← List.head?_filter]
  exact (h.filter hpq).head?

theorem List.Forall₂.any : ys.any q = xs.any p := by
  induction h with
  | nil => rfl
  | cons hxy _ ih => rw [List.any_cons, List.any_cons, hpq _ _ hxy, ih]

end Tests

theorem List.Forall₂.mapM {α β γ δ : Type} {P : α → β → Prop} {Q : γ → δ → Prop} {xs : List α}
    {ys : List β} {f : α → Option γ} {g : β → Option δ} (h : List.Forall₂ P xs ys)
    (hfg : ∀ x y, P x y → Option.Rel Q (f x) (g y)) :
    Option.Rel (List.Forall₂ Q) (xs.mapM f) (ys.mapM g) := by
  induction h with
  | nil => exact .some .nil
  | cons hxy _ ih =>
      rw [List.mapM_cons, List.mapM_cons]
      refine (hfg _ _ hxy).bind fun a b hab => ?_
      exact ih.bind fun as bs hrest => .some (.cons hab hrest)

/-- A stable sort does not tell related lists apart if their orders agree. -/
theorem List.Forall₂.mergeSort {α β : Type} {P : α → β → Prop} {xs : List α} {ys : List β}
    {le : α → α → Bool} {le' : β → β → Bool} (h : List.Forall₂ P xs ys)
    (hle : ∀ x x' y y', P x y → P x' y' → le' y y' = le x x') :
    List.Forall₂ P (xs.mergeSort le) (ys.mergeSort le') := by
  obtain ⟨hlength, hzip⟩ := List.forall₂_iff_zip.mp h
  let before (a b : α × β) : Bool := le a.1 b.1
  have hfirst : xs.mergeSort le = ((xs.zip ys).mergeSort before).map Prod.fst := by
    rw [List.map_mergeSort (s := le) fun _ _ _ _ => rfl, List.map_fst_zip (Nat.le_of_eq hlength)]
  have hsecond : ys.mergeSort le' = ((xs.zip ys).mergeSort before).map Prod.snd := by
    rw [List.map_mergeSort (s := le'), List.map_snd_zip (Nat.le_of_eq hlength.symm)]
    intro a ha b hb
    exact (hle _ _ _ _ (hzip ha) (hzip hb)).symm
  rw [hfirst, hsecond, List.forall₂_map_left_iff, List.forall₂_map_right_iff, List.forall₂_same]
  intro a ha
  exact hzip (List.mem_mergeSort.mp ha)
