/-
Byte offsets as cuts of a text. An offset at which a text can be cut is the size of the part before
it, and the parts with that size are one: so slices, boundaries and trimmed texts are all told by a
way to write the text as an append.
-/
import Mathlib.Data.List.DropRight
import SqlInsight.Text.CharClass

namespace SqlInsight.Text

@[simp] theorem size_nil : size [] = 0 := rfl

@[simp] theorem size_cons (c : Char) (t : Text) :
    size (c :: t) = c.utf8Size + size t := rfl

@[simp] theorem utf8Size_semicolon : Char.utf8Size ';' = 1 := rfl

@[simp] theorem utf8Size_newline : Char.utf8Size '\n' = 1 := rfl

@[simp] theorem size_eq_zero_iff (t : Text) : size t = 0 ↔ t = [] := by
  cases t with
  | nil => simp
  | cons c rest =>
      have hpos := c.utf8Size_pos
      simp only [size_cons, reduceCtorEq, iff_false]
      omega

theorem size_pos {t : Text} (ht : t ≠ []) : 0 < size t :=
  Nat.pos_of_ne_zero fun hzero => ht ((size_eq_zero_iff t).mp hzero)

theorem size_le_of_isPrefix {a b : Text} (h : a <+: b) : size a ≤ size b := by
  obtain ⟨rest, rfl⟩ := h
  rw [size_append]
  exact Nat.le_add_right _ _

theorem size_reverse (t : Text) : size t.reverse = size t := by
  induction t with
  | nil => rfl
  | cons c rest ih =>
      rw [List.reverse_cons, size_append, ih, size_cons, size_cons, size_nil]
      omega

theorem size_take_le (t : Text) (n : Nat) : size (t.take n) ≤ size t :=
  size_le_of_isPrefix (List.take_prefix n t)

theorem size_take_mono (t : Text) {m n : Nat} (h : m ≤ n) :
    size (t.take m) ≤ size (t.take n) :=
  size_le_of_isPrefix (List.take_prefix_take_left h)

/-- Of two ways to cut a text the one at the lesser offset cuts the other's first part. -/
theorem exists_append_of_size_le {a b a' b' : Text} (h : a ++ b = a' ++ b')
    (hsize : size a ≤ size a') : ∃ m, a' = a ++ m ∧ b = m ++ b' := by
  rcases List.append_eq_append_iff.mp h with ⟨m, ha', hb⟩ | ⟨m, ha, hb'⟩
  · exact ⟨m, ha', hb⟩
  · have hm : m = [] := by
      rw [ha, size_append] at hsize
      exact (size_eq_zero_iff m).mp (by omega)
    subst hm
    exact ⟨[], by simpa using ha.symm, by simpa using hb'.symm⟩

@[simp] theorem takeBytes_size_append (a b : Text) : takeBytes (size a) (a ++ b) = a := by
  induction a with
  | nil => cases b <;> simp [takeBytes]
  | cons c rest ih =>
      simp [takeBytes, ih, Nat.ne_of_gt c.utf8Size_pos]

@[simp] theorem dropBytes_size_append (a b : Text) : dropBytes (size a) (a ++ b) = b := by
  induction a with
  | nil => cases b <;> simp [dropBytes]
  | cons c rest ih =>
      simp [dropBytes, ih, Nat.ne_of_gt c.utf8Size_pos]

/-- A slice between two cuts is what stands between them. -/
theorem slice_append (a b c : Text) :
    slice (a ++ b ++ c) (size a) (size a + size b) = b := by
  rw [slice, List.append_assoc, dropBytes_size_append, Nat.add_sub_cancel_left,
    takeBytes_size_append]

theorem size_take_append_left (a b : Text) {i : Nat} (h : i ≤ a.length) :
    size ((a ++ b).take i) = size (a.take i) := by
  rw [List.take_append_of_le_length h]

theorem size_take_append_right (a b : Text) (i : Nat) :
    size ((a ++ b).take (a.length + i)) = size a + size (b.take i) := by
  rw [List.take_length_add_append, size_append]

/-- A character that cannot stand in the outer parts of a text stands in the middle one. -/
theorem middle_covers {a b c : Text} {p : Char → Prop} (ha : ∀ x ∈ a, p x)
    (hc : ∀ x ∈ c, p x) {i : Nat} {x : Char} (hx : (a ++ b ++ c)[i]? = some x) (hp : ¬ p x) :
    size a ≤ size ((a ++ b ++ c).take i) ∧
      size ((a ++ b ++ c).take (i + 1)) ≤ size a + size b := by
  have hlow : a.length ≤ i := by
    by_contra hlt
    rw [List.append_assoc, List.getElem?_append_left (by omega)] at hx
    exact hp (ha x (List.mem_of_getElem? hx))
  have hhigh : i < (a ++ b).length := by
    by_contra hge
    rw [List.getElem?_append_right (by omega)] at hx
    exact hp (hc x (List.mem_of_getElem? hx))
  constructor
  · obtain ⟨j, rfl⟩ := Nat.exists_eq_add_of_le hlow
    rw [List.append_assoc, size_take_append_right]
    exact Nat.le_add_right _ _
  · rw [size_take_append_left _ _ hhigh, ← size_append]
    exact size_take_le _ _

theorem dropEndWhile_eq_rdropWhile (p : Char → Bool) (t : Text) :
    dropEndWhile p t = t.rdropWhile p := by
  induction t with
  | nil => rfl
  | cons c rest ih =>
      rw [dropEndWhile, ih, List.rdropWhile, List.rdropWhile, List.reverse_cons,
        List.dropWhile_append]
      cases hrest : rest.reverse.dropWhile p with
      | nil => by_cases hp : p c <;> simp [hp]
      | cons d more => simp

/-- What `dropEndWhile` cuts off satisfies the condition. -/
theorem exists_dropEndWhile (p : Char → Bool) (t : Text) :
    ∃ tail, t = dropEndWhile p t ++ tail ∧ ∀ c ∈ tail, p c = true := by
  refine ⟨t.rtakeWhile p, ?_, fun c hc => List.mem_rtakeWhile_imp hc⟩
  rw [dropEndWhile_eq_rdropWhile, List.rdropWhile_append_rtakeWhile]

theorem dropEndWhile_getLast? (p : Char → Bool) (t : Text) {c : Char}
    (h : (dropEndWhile p t).getLast? = some c) : p c = false := by
  rw [dropEndWhile_eq_rdropWhile] at h
  have hne : t.rdropWhile p ≠ [] := by
    intro hnil
    simp [hnil] at h
  have hlast := List.rdropWhile_last_not p t hne
  rw [List.getLast?_eq_some_getLast hne] at h
  simpa [Option.some.inj h] using hlast

/-- Nothing up to a character that stays is cut off at the end. -/
theorem dropEndWhile_append_cons (p : Char → Bool) (a b : Text) {c : Char} (hc : p c = false) :
    dropEndWhile p (a ++ c :: b) = a ++ c :: dropEndWhile p b := by
  induction a with
  | nil =>
      rw [List.nil_append, dropEndWhile]
      cases dropEndWhile p b <;> simp [hc]
  | cons d rest ih =>
      rw [List.cons_append, dropEndWhile, ih]
      cases rest <;> simp

/-- A trimmed text with its blanks put back. -/
theorem exists_trim (t : Text) :
    ∃ lead tail, t = lead ++ t.trim ++ tail ∧ (∀ c ∈ lead, CharClass.isBlank c = true) ∧
      (∀ c ∈ tail, CharClass.isBlank c = true) ∧ size t - size t.trimStart = size lead := by
  obtain ⟨tail, htail, hblank⟩ := exists_dropEndWhile CharClass.isBlank t.trimStart
  have hlead : t = t.takeWhile CharClass.isBlank ++ t.trimStart :=
    List.takeWhile_append_dropWhile.symm
  refine ⟨t.takeWhile CharClass.isBlank, tail, ?_, fun c hc => List.mem_takeWhile_imp hc,
    hblank, ?_⟩
  · conv_lhs => rw [hlead, htail]
    rw [trim, trimEnd, List.append_assoc]
  · conv_lhs => rw [hlead, size_append]
    rw [← hlead, Nat.add_sub_cancel]

/-- A text is trimmed when it neither begins nor ends with a blank. -/
theorem trim_eq_self {t : Text} (hhead : ∀ c, t.head? = some c → CharClass.isBlank c = false)
    (hlast : ∀ c, t.getLast? = some c → CharClass.isBlank c = false) : t.trim = t := by
  have hstart : t.trimStart = t := by
    cases t with
    | nil => rfl
    | cons c rest => exact List.dropWhile_cons_of_neg (by simp [hhead c rfl])
  rw [trim, hstart, trimEnd, dropEndWhile_eq_rdropWhile, List.rdropWhile_eq_self_iff]
  intro hne
  simp [hlast _ (List.getLast?_eq_some_getLast hne)]

theorem trimStart_append_of_isBlank {a : Text} (h : a.isBlank = true) (b : Text) :
    (a ++ b).trimStart = b.trimStart := by
  rw [isBlank, List.all_eq_true] at h
  exact List.dropWhile_append_of_pos h

theorem trim_append_of_isBlank (a : Text) {b : Text} (h : b.isBlank = true) :
    (a ++ b).trim = a.trim := by
  rw [isBlank, List.all_eq_true] at h
  have hend (c : Text) : (c ++ b).trimEnd = c.trimEnd := by
    rw [trimEnd, trimEnd, dropEndWhile_eq_rdropWhile, dropEndWhile_eq_rdropWhile, List.rdropWhile,
      List.rdropWhile, List.reverse_append, List.dropWhile_append_of_pos]
    intro x hx
    exact h x (List.mem_reverse.mp hx)
  rw [trim, trim, trimStart, trimStart, List.dropWhile_append]
  split
  · rename_i hempty
    have hnil : b.dropWhile CharClass.isBlank = [] := by
      rw [List.dropWhile_eq_nil_iff]
      exact h
    rw [List.isEmpty_iff.mp hempty, hnil]
  · exact hend _

theorem trimStart_head? (t : Text) {c : Char} (h : t.trimStart.head? = some c) :
    CharClass.isBlank c = false := by
  have hnot := List.head?_dropWhile_not CharClass.isBlank t
  rw [trimStart] at h
  simpa [h] using hnot

theorem head?_of_isPrefix {a b : Text} (h : a <+: b) {c : Char} (hc : a.head? = some c) :
    b.head? = some c := by
  obtain ⟨rest, rfl⟩ := h
  cases a with
  | nil => simp at hc
  | cons d more => simpa using hc

theorem dropEndWhile_isPrefix (p : Char → Bool) (t : Text) : dropEndWhile p t <+: t := by
  obtain ⟨tail, htail, -⟩ := exists_dropEndWhile p t
  exact ⟨tail, htail.symm⟩

theorem trim_head? (t : Text) {c : Char} (h : t.trim.head? = some c) :
    CharClass.isBlank c = false :=
  trimStart_head? t (head?_of_isPrefix (dropEndWhile_isPrefix _ _) h)

/-- Trimming the end of a text that begins with no blank gives a trimmed text. -/
theorem trim_trimEnd {t : Text} (hhead : ∀ c, t.head? = some c → CharClass.isBlank c = false) :
    t.trimEnd.trim = t.trimEnd := by
  refine trim_eq_self (fun c hc => ?_) fun c hc => dropEndWhile_getLast? _ _ hc
  exact hhead c (head?_of_isPrefix (dropEndWhile_isPrefix _ _) hc)

theorem trim_trim (t : Text) : t.trim.trim = t.trim :=
  trim_trimEnd fun _ => trimStart_head? t

end SqlInsight.Text
