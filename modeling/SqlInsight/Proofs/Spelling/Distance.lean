/-
The distance between two texts. Writing rows over each other gives the edit distance as it is
defined by recursion on both texts, and that is the least number of edits of one character that
turn the one text into the other. So the distance is a metric.
-/
import Mathlib.Order.Bounds.Defs
import SqlInsight.Spelling

namespace SqlInsight.Spelling

/-- The edit distance: the first character of the one text is deleted, or that of the other is
inserted, or the one takes the place of the other, which is free if they are the same. -/
def editDistance : Text → Text → Nat
  | [], b => b.length
  | c :: a, [] => a.length + 1
  | c :: a, d :: b =>
      min (min (editDistance a (d :: b) + 1) (editDistance (c :: a) b + 1))
        (editDistance a b + if c = d then 0 else 1)
termination_by a b => a.length + b.length

/-- An edit inserts, deletes or replaces one character. -/
inductive Edit : Text → Text → Prop
  | insert (before : Text) (c : Char) (after : Text) :
      Edit (before ++ after) (before ++ c :: after)
  | delete (before : Text) (c : Char) (after : Text) :
      Edit (before ++ c :: after) (before ++ after)
  | replace (before : Text) (c d : Char) (after : Text) :
      Edit (before ++ c :: after) (before ++ d :: after)

/-- One text becomes another by some number of edits, one after the other. -/
inductive Edits : Nat → Text → Text → Prop
  | refl (a : Text) : Edits 0 a a
  | step {n : Nat} {a b c : Text} (first : Edit a b) (rest : Edits n b c) : Edits (n + 1) a c

variable {a b c p q : Text} {m n : Nat}

/-! ## Edits -/

theorem Edit.cons (c : Char) (h : Edit a b) : Edit (c :: a) (c :: b) := by
  cases h with
  | insert before d after => exact .insert (c :: before) d after
  | delete before d after => exact .delete (c :: before) d after
  | replace before d e after => exact .replace (c :: before) d e after

theorem Edit.symm (h : Edit a b) : Edit b a := by
  cases h with
  | insert before c after => exact .delete before c after
  | delete before c after => exact .insert before c after
  | replace before c d after => exact .replace before d c after

theorem Edit.reverse (h : Edit a b) : Edit a.reverse b.reverse := by
  cases h with
  | insert before c after => simpa using Edit.insert after.reverse c before.reverse
  | delete before c after => simpa using Edit.delete after.reverse c before.reverse
  | replace before c d after => simpa using Edit.replace after.reverse c d before.reverse

theorem Edits.trans (h : Edits m a b) (h' : Edits n b c) : Edits (m + n) a c := by
  induction h with
  | refl a => rwa [Nat.zero_add]
  | step first _ ih =>
      rw [Nat.add_right_comm]
      exact .step first (ih h')

theorem Edits.concat (h : Edits n a b) (last : Edit b c) : Edits (n + 1) a c :=
  h.trans (.step last (.refl c))

theorem Edits.cons (c : Char) (h : Edits n a b) : Edits n (c :: a) (c :: b) := by
  induction h with
  | refl a => exact .refl (c :: a)
  | step first _ ih => exact .step (first.cons c) ih

theorem Edits.symm (h : Edits n a b) : Edits n b a := by
  induction h with
  | refl a => exact .refl a
  | step first _ ih => exact ih.concat first.symm

theorem Edits.reverse (h : Edits n a b) : Edits n a.reverse b.reverse := by
  induction h with
  | refl a => exact .refl a.reverse
  | step first _ ih => exact .step first.reverse ih

theorem Edits.min (h : Edits m a b) (h' : Edits n a b) : Edits (min m n) a b := by
  rw [Nat.min_def]
  split
  · exact h
  · exact h'

/-! ## The edit distance -/

theorem editDistance_nil_left (b : Text) : editDistance [] b = b.length := by
  rw [editDistance]

theorem editDistance_nil_right (a : Text) : editDistance a [] = a.length := by
  cases a with
  | nil => rw [editDistance]
  | cons c a => rw [editDistance, List.length_cons]

theorem editDistance_cons_cons (c d : Char) (a b : Text) :
    editDistance (c :: a) (d :: b) =
      min (min (editDistance a (d :: b) + 1) (editDistance (c :: a) b + 1))
        (editDistance a b + if c = d then 0 else 1) := by
  rw [editDistance]

theorem editDistance_self (a : Text) : editDistance a a = 0 := by
  induction a with
  | nil => rw [editDistance, List.length_nil]
  | cons c a ih =>
      rw [editDistance, ih, if_pos rfl]
      exact Nat.min_zero _

/-- As many edits as the edit distance says are enough. -/
theorem edits_editDistance (a b : Text) : Edits (editDistance a b) a b := by
  induction a, b using editDistance.induct with
  | case1 b =>
      rw [editDistance]
      induction b with
      | nil => exact .refl []
      | cons d b ih => exact ih.concat (.insert [] d b)
  | case2 c a =>
      rw [editDistance]
      induction a generalizing c with
      | nil => exact .step (.delete [] c []) (.refl [])
      | cons d a ih => exact .step (.delete [] c (d :: a)) (ih d)
  | case3 c a d b ihdelete ihinsert ihreplace =>
      have hdelete : Edits (editDistance a (d :: b) + 1) (c :: a) (d :: b) :=
        .step (.delete [] c a) ihdelete
      have hinsert : Edits (editDistance (c :: a) b + 1) (c :: a) (d :: b) :=
        ihinsert.concat (.insert [] d b)
      have hreplace : Edits (editDistance a b + if c = d then 0 else 1) (c :: a) (d :: b) := by
        split
        · rename_i hsame
          rw [hsame]
          exact ihreplace.cons d
        · exact .step (.replace [] c d a) (ihreplace.cons d)
      rw [editDistance]
      exact (hdelete.min hinsert).min hreplace

theorem editDistance_cons_right_le (a : Text) (d : Char) (b : Text) :
    editDistance a (d :: b) ≤ editDistance a b + 1 := by
  cases a with
  | nil =>
      apply Nat.le_of_eq
      rw [editDistance_nil_left, editDistance_nil_left, List.length_cons]
  | cons c a =>
      rw [editDistance]
      omega

/-- What changes the distance by one at most does so behind any text. -/
theorem editDistance_append_le {u v : Text}
    (h : ∀ b, editDistance u b ≤ editDistance v b + 1) (before b : Text) :
    editDistance (before ++ u) b ≤ editDistance (before ++ v) b + 1 := by
  induction before generalizing b with
  | nil => exact h b
  | cons c before ih =>
      induction b with
      | nil =>
          have hbefore := ih []
          rw [editDistance_nil_right, editDistance_nil_right] at hbefore ⊢
          exact Nat.succ_le_succ hbefore
      | cons d b ihb =>
          have hdelete := ih (d :: b)
          have hreplace := ih b
          rw [List.cons_append, List.cons_append] at ihb ⊢
          rw [editDistance, editDistance]
          omega

/-- An edit changes the distance by one at most. -/
theorem Edit.editDistance_le (h : Edit a b) (c : Text) :
    editDistance a c ≤ editDistance b c + 1 := by
  cases h with
  | insert before d after =>
      apply editDistance_append_le
      intro c
      induction c with
      | nil =>
          rw [editDistance_nil_right, editDistance_nil_right, List.length_cons]
          omega
      | cons e c ih =>
          have hright := editDistance_cons_right_le after e c
          rw [editDistance_cons_cons]
          omega
  | delete before d after =>
      apply editDistance_append_le
      intro c
      cases c with
      | nil =>
          apply Nat.le_of_eq
          rw [editDistance_nil_right, editDistance_nil_right, List.length_cons]
      | cons e c =>
          rw [editDistance]
          omega
  | replace before d e after =>
      apply editDistance_append_le
      intro c
      induction c with
      | nil =>
          rw [editDistance_nil_right, editDistance_nil_right, List.length_cons, List.length_cons]
          omega
      | cons f c ih =>
          have hreplace : (if d = f then 0 else 1) ≤ 1 := by
            split <;> decide
          rw [editDistance, editDistance]
          omega

/-- Fewer edits than the edit distance says are not enough. -/
theorem Edits.editDistance_le (h : Edits n a b) : editDistance a b ≤ n := by
  induction h with
  | refl a => exact Nat.le_of_eq (editDistance_self a)
  | step first _ ih => exact Nat.le_trans (first.editDistance_le _) (Nat.succ_le_succ ih)

theorem isLeast_editDistance (a b : Text) : IsLeast {n | Edits n a b} (editDistance a b) :=
  ⟨edits_editDistance a b, fun _ h => Edits.editDistance_le h⟩

theorem editDistance_reverse (a b : Text) :
    editDistance a.reverse b.reverse = editDistance a b := by
  apply Nat.le_antisymm
  · exact (edits_editDistance a b).reverse.editDistance_le
  · have h := (edits_editDistance a.reverse b.reverse).reverse.editDistance_le
    rwa [List.reverse_reverse, List.reverse_reverse] at h

theorem editDistance_comm (a b : Text) : editDistance a b = editDistance b a := by
  apply Nat.le_antisymm
  · exact (edits_editDistance b a).symm.editDistance_le
  · exact (edits_editDistance a b).symm.editDistance_le

theorem editDistance_eq_zero_iff : editDistance a b = 0 ↔ a = b := by
  constructor
  · intro hzero
    have hedits := edits_editDistance a b
    rw [hzero] at hedits
    cases hedits
    rfl
  · rintro rfl
    exact editDistance_self a

theorem editDistance_triangle (a b c : Text) :
    editDistance a c ≤ editDistance a b + editDistance b c :=
  ((edits_editDistance a b).trans (edits_editDistance b c)).editDistance_le

/-- The recursion may as well run over the last characters. -/
theorem editDistance_concat (p q : Text) (c d : Char) :
    editDistance (p ++ [c]) (q ++ [d]) =
      min (min (editDistance p (q ++ [d]) + 1) (editDistance (p ++ [c]) q + 1))
        (editDistance p q + if c = d then 0 else 1) := by
  have hdelete := editDistance_reverse p (q ++ [d])
  have hinsert := editDistance_reverse (p ++ [c]) q
  have hboth := editDistance_reverse (p ++ [c]) (q ++ [d])
  rw [List.reverse_concat] at hdelete hinsert hboth
  rw [List.reverse_concat, editDistance] at hboth
  rw [← hboth, hdelete, hinsert, editDistance_reverse p q]

/-! ## The rows of the table -/

/-- The entries of a row are the distances of `p` to the texts that begin `b`. -/
def IsRow (p b : Text) (row : Array Nat) : Prop :=
  ∀ q, q <+: b → row[q.length]? = some (editDistance p q)

theorem IsRow.of_prefix {row : Array Nat} (h : IsRow p b row) (hq : q <+: b) : IsRow p q row :=
  fun r hr => h r (hr.trans hq)

theorem isRow_range (b : Text) : IsRow [] b (Array.range (b.length + 1)) := by
  intro q hq
  have hlt : q.length < b.length + 1 := Nat.lt_succ_of_le hq.length_le
  rw [editDistance_nil_left, Array.getElem?_range, if_pos hlt]

theorem size_writeRow (c : Char) (above : Array Nat) (j : Nat) (b : Text) (row : Array Nat) :
    (writeRow c above j b row).size = row.size := by
  induction b generalizing j row with
  | nil => rfl
  | cons d rest ih => rw [writeRow, ih, Array.size_set!]

/-- One more entry is written from the two above it and the one before it. -/
theorem IsRow.set {above row : Array Nat} {c d : Char} (habove : IsRow p (q ++ [d]) above)
    (hrow : IsRow (p ++ [c]) q row) (hsize : q.length + 1 < row.size) :
    IsRow (p ++ [c]) (q ++ [d])
      (row.set! (q.length + 1) (min (min (above[q.length + 1]! + 1) (row[q.length]! + 1))
        (above[q.length]! + if c = d then 0 else 1))) := by
  have hup : above[q.length + 1]! = editDistance p (q ++ [d]) := by
    have hlast := habove (q ++ [d]) List.prefix_rfl
    rw [List.length_append, List.length_singleton] at hlast
    rw [getElem!_def, hlast]
  have hleft : row[q.length]! = editDistance (p ++ [c]) q := by
    rw [getElem!_def, hrow q List.prefix_rfl]
  have hdiagonal : above[q.length]! = editDistance p q := by
    rw [getElem!_def, habove q (List.prefix_append q [d])]
  intro r hr
  rw [hup, hleft, hdiagonal, ← editDistance_concat, Array.set!_eq_setIfInBounds]
  rcases List.prefix_concat_iff.mp hr with rfl | hr
  · rw [List.length_append, List.length_singleton]
    exact Array.getElem?_setIfInBounds_self_of_lt hsize
  · have hne : q.length + 1 ≠ r.length := Nat.ne_of_gt (Nat.lt_succ_of_le hr.length_le)
    rw [Array.getElem?_setIfInBounds_ne hne]
    exact hrow r hr

/-- A row is written from left to right. The entries for the texts that begin `q` are written; what
the row holds behind them does not matter. -/
theorem IsRow.writeRow {above row : Array Nat} {c : Char} {b : Text}
    (habove : IsRow p (q ++ b) above) (hrow : IsRow (p ++ [c]) q row)
    (hsize : row.size = (q ++ b).length + 1) :
    IsRow (p ++ [c]) (q ++ b) (writeRow c above q.length b row) := by
  induction b generalizing q row with
  | nil => rwa [List.append_nil]
  | cons d rest ih =>
      rw [List.append_cons q d rest] at habove hsize ⊢
      have hroom : q.length + 1 < row.size := by
        simp only [hsize, List.length_append, List.length_singleton]
        omega
      have hset := IsRow.set (habove.of_prefix (List.prefix_append _ rest)) hrow hroom
      have hwritten := ih habove hset (by rwa [Array.size_set!])
      rwa [List.length_append, List.length_singleton] at hwritten

/-- When the rows for the characters `p` are written, the complete one is the row of `p`, and both
are as long as the second text asks for. -/
structure Rows.Reach (p b : Text) (rows : Rows) : Prop where
  isRow : IsRow p b rows.complete
  size_complete : rows.complete.size = b.length + 1
  size_spare : rows.spare.size = b.length + 1

theorem Rows.reach_start (b : Text) : (start (b.length + 1)).Reach [] b :=
  ⟨isRow_range b, Array.size_range, Array.size_replicate⟩

theorem Rows.Reach.next {rows : Rows} (h : rows.Reach p b) (c : Char) :
    (rows.next b p.length c).Reach (p ++ [c]) b := by
  have hsize : (rows.spare.set! 0 (p.length + 1)).size = b.length + 1 :=
    (Array.size_set! rows.spare 0 (p.length + 1)).trans h.size_spare
  have hfirst : IsRow (p ++ [c]) [] (rows.spare.set! 0 (p.length + 1)) := by
    intro q hq
    have hroom : 0 < rows.spare.size := by
      rw [h.size_spare]
      exact Nat.succ_pos b.length
    rw [List.prefix_nil.mp hq, editDistance_nil_right, List.length_append,
      Array.set!_eq_setIfInBounds]
    exact Array.getElem?_setIfInBounds_self_of_lt hroom
  refine ⟨IsRow.writeRow h.isRow hfirst hsize, ?_, h.size_complete⟩
  exact (size_writeRow c rows.complete 0 b _).trans hsize

theorem Rows.Reach.run {rows : Rows} (h : rows.Reach p b) (a : Text) :
    (rows.run b p.length a).Reach (p ++ a) b := by
  induction a generalizing p rows with
  | nil =>
      rw [List.append_nil]
      exact h
  | cons c rest ih =>
      have hrest := ih (h.next c)
      rw [List.length_append, List.length_singleton] at hrest
      rw [List.append_cons p c rest]
      exact hrest

/-- The distance that the rows give is the edit distance. -/
theorem distance_eq_editDistance (a b : Text) : distance a b = editDistance a b := by
  unfold distance
  split
  · rename_i ha
    rw [List.isEmpty_iff.mp ha, editDistance_nil_left]
  · split
    · rename_i hb
      rw [List.isEmpty_iff.mp hb, editDistance_nil_right]
    · have hrun : ((Rows.start (b.length + 1)).run b 0 a).Reach a b :=
        (Rows.reach_start b).run a
      rw [getElem!_def, hrun.isRow b List.prefix_rfl]

/-- The distance is the edit distance: the least number of edits. It is symmetric, zero between
equal texts only, and a detour is never shorter. -/
theorem distance_metric (a b c : Text) :
    distance a b = editDistance a b ∧ IsLeast {n | Edits n a b} (distance a b) ∧
      distance a b = distance b a ∧ (distance a b = 0 ↔ a = b) ∧
      distance a c ≤ distance a b + distance b c := by
  refine ⟨distance_eq_editDistance a b, ?_⟩
  simp only [distance_eq_editDistance]
  exact ⟨isLeast_editDistance a b, editDistance_comm a b, editDistance_eq_zero_iff,
    editDistance_triangle a b c⟩

example : distance "kitten".toList "sitting".toList = 3 := by decide +kernel

end SqlInsight.Spelling
