/-
The lines of a text, the position of a cut of a text and the offset of a position. A line together
with the lines before it and those after it tells where it stands: behind the terminated lines
before it, and before the line feeds of those that follow. The lines before a cut give its line, and
what its line holds before it gives its column. So an offset taken at a position does not pass over
a cut: it stays before one at or behind the position, and behind one at or before it whose character
no clamping removes.
-/
import SqlInsight.Proofs.Text.Bytes
import SqlInsight.Text.Position

namespace SqlInsight.Text

/-- Lines, each after a line feed. -/
def preceded (lines : List Text) : Text :=
  lines.flatMap ('\n' :: ·)

@[simp] theorem terminated_nil : terminated [] = [] := rfl

@[simp] theorem terminated_append (first second : List Text) :
    terminated (first ++ second) = terminated first ++ terminated second :=
  List.flatMap_append

@[simp] theorem terminated_cons (line : Text) (lines : List Text) :
    terminated (line :: lines) = line ++ '\n' :: terminated lines := by
  simp [terminated]

@[simp] theorem preceded_nil : preceded [] = [] := rfl

@[simp] theorem preceded_cons (line : Text) (lines : List Text) :
    preceded (line :: lines) = '\n' :: line ++ preceded lines :=
  List.flatMap_cons

@[simp] theorem preceded_append (first second : List Text) :
    preceded (first ++ second) = preceded first ++ preceded second :=
  List.flatMap_append

theorem intercalate_cons (line : Text) (lines : List Text) :
    List.intercalate ['\n'] (line :: lines) = line ++ preceded lines := by
  induction lines generalizing line with
  | nil => simp [List.intercalate]
  | cons next rest ih =>
      rw [List.intercalate_cons_cons, ih]
      simp

theorem intercalate_append_preceded {own : List Text} (hown : own ≠ []) (after : List Text) :
    List.intercalate ['\n'] (own ++ after) = List.intercalate ['\n'] own ++ preceded after := by
  obtain ⟨line, more, rfl⟩ := List.exists_cons_of_ne_nil hown
  rw [List.cons_append, intercalate_cons, intercalate_cons, preceded_append, List.append_assoc]

theorem intercalate_terminated_append (before : List Text) {own : List Text} (hown : own ≠ []) :
    List.intercalate ['\n'] (before ++ own) =
      terminated before ++ List.intercalate ['\n'] own := by
  induction before with
  | nil => rfl
  | cons first rest ih =>
      obtain ⟨line, more, hcons⟩ :=
        List.exists_cons_of_ne_nil (List.append_ne_nil_of_right_ne_nil rest hown)
      rw [List.cons_append, hcons, List.intercalate_cons_cons, ← hcons, ih, terminated_cons]
      simp

theorem terminated_eq {lines : List Text} (hlines : lines ≠ []) :
    terminated lines = List.intercalate ['\n'] lines ++ ['\n'] := by
  have hlast := intercalate_terminated_append lines (List.cons_ne_nil ([] : Text) [])
  rw [intercalate_append_preceded hlines] at hlast
  simpa [List.intercalate] using hlast.symm

theorem lines_ne_nil (t : Text) : t.lines ≠ [] := by
  cases t with
  | nil => simp [lines]
  | cons c rest =>
      rw [lines]
      split
      · simp
      · split_ifs <;> simp

theorem lines_cons_newline (t : Text) : lines ('\n' :: t) = [] :: t.lines := by
  rw [lines]
  split
  · rename_i hnil
    exact absurd hnil (lines_ne_nil t)
  · rename_i line more hlines
    simp [hlines]

theorem lines_cons_of_ne {c : Char} (hc : c ≠ '\n') {t line : Text} {more : List Text}
    (h : t.lines = line :: more) : lines (c :: t) = (c :: line) :: more := by
  rw [lines, h]
  simp [hc]

theorem lines_append_newline (a b : Text) :
    lines (a ++ '\n' :: b) = a.lines ++ b.lines := by
  induction a with
  | nil => exact lines_cons_newline b
  | cons c rest ih =>
      by_cases hc : c = '\n'
      · subst hc
        rw [List.cons_append, lines_cons_newline, lines_cons_newline, ih, List.cons_append]
      · obtain ⟨line, more, hlines⟩ := List.exists_cons_of_ne_nil (lines_ne_nil rest)
        rw [List.cons_append, lines_cons_of_ne hc hlines,
          lines_cons_of_ne hc (by rw [ih, hlines, List.cons_append]), List.cons_append]

theorem length_lines (t : Text) : t.lines.length = t.count '\n' + 1 := by
  induction t with
  | nil => rfl
  | cons c rest ih =>
      by_cases hc : c = '\n'
      · subst hc
        rw [lines_cons_newline, List.length_cons, ih, List.count_cons_self]
      · obtain ⟨line, more, hlines⟩ := List.exists_cons_of_ne_nil (lines_ne_nil rest)
        rw [lines_cons_of_ne hc hlines, List.count_cons_of_ne (by simpa using hc), ← ih, hlines]
        rfl

theorem newline_not_mem_of_mem_lines {t line : Text} (h : line ∈ t.lines) : '\n' ∉ line := by
  induction t generalizing line with
  | nil =>
      obtain rfl := List.mem_singleton.mp h
      simp
  | cons c rest ih =>
      by_cases hc : c = '\n'
      · subst hc
        rw [lines_cons_newline] at h
        rcases List.mem_cons.mp h with rfl | hrest
        · simp
        · exact ih hrest
      · obtain ⟨first, more, hlines⟩ := List.exists_cons_of_ne_nil (lines_ne_nil rest)
        rw [lines_cons_of_ne hc hlines] at h
        rcases List.mem_cons.mp h with rfl | hrest
        · have hfirst : '\n' ∉ first := ih (by rw [hlines]; exact List.mem_cons_self)
          simp [hfirst, Ne.symm hc]
        · exact ih (by rw [hlines]; exact List.mem_cons_of_mem _ hrest)

theorem lines_append_of_newline_not_mem {a b line : Text} {more : List Text} (ha : '\n' ∉ a)
    (h : b.lines = line :: more) : lines (a ++ b) = (a ++ line) :: more := by
  induction a with
  | nil => exact h
  | cons c rest ih =>
      have hc : c ≠ '\n' := fun heq => ha (heq ▸ List.mem_cons_self)
      exact lines_cons_of_ne hc (ih fun hrest => ha (List.mem_cons_of_mem _ hrest))

theorem lines_of_newline_not_mem {t : Text} (h : '\n' ∉ t) : t.lines = [t] := by
  have hnil : lines [] = [[]] := rfl
  simpa using lines_append_of_newline_not_mem h hnil

theorem lines_terminated_append {lines : List Text} (h : ∀ line ∈ lines, '\n' ∉ line) (t : Text) :
    Text.lines (terminated lines ++ t) = lines ++ t.lines := by
  induction lines with
  | nil => rfl
  | cons line rest ih =>
      have hline : Text.lines line = [line] := lines_of_newline_not_mem (h line List.mem_cons_self)
      rw [terminated_cons, List.append_assoc, List.cons_append, lines_append_newline, hline,
        ih fun l hl => h l (List.mem_cons_of_mem _ hl)]
      rfl

theorem intercalate_lines (t : Text) : List.intercalate ['\n'] t.lines = t := by
  induction t with
  | nil => rfl
  | cons c rest ih =>
      obtain ⟨line, more, hlines⟩ := List.exists_cons_of_ne_nil (lines_ne_nil rest)
      rw [hlines, intercalate_cons] at ih
      by_cases hc : c = '\n'
      · subst hc
        rw [lines_cons_newline, hlines, intercalate_cons, preceded_cons, List.nil_append,
          List.cons_append, ih]
      · rw [lines_cons_of_ne hc hlines, intercalate_cons, List.cons_append, ih]

/-- A stretch of lines of a text stands behind the terminated lines before it. -/
theorem eq_of_lines_append {t : Text} {before own after : List Text}
    (h : t.lines = before ++ own ++ after) (hown : own ≠ []) :
    t = terminated before ++ List.intercalate ['\n'] own ++ preceded after := by
  conv_lhs => rw [← intercalate_lines t, h]
  rw [List.append_assoc,
    intercalate_terminated_append before (List.append_ne_nil_of_left_ne_nil hown after),
    intercalate_append_preceded hown, List.append_assoc]

theorem count_newline_terminated {lines : List Text} (h : ∀ line ∈ lines, '\n' ∉ line) :
    (terminated lines).count '\n' = lines.length := by
  induction lines with
  | nil => rfl
  | cons line rest ih =>
      have hline : line.count '\n' = 0 := List.count_eq_zero.mpr (h line List.mem_cons_self)
      rw [terminated_cons, List.count_append, List.count_cons_self, hline,
        ih fun l hl => h l (List.mem_cons_of_mem _ hl), List.length_cons, Nat.zero_add]

end SqlInsight.Text

namespace SqlInsight

namespace Position

/-- The position behind a character. -/
def advance (p : Position) (c : Char) : Position :=
  if c = '\n' then ⟨p.line + 1, 1⟩ else ⟨p.line, p.column + 1⟩

def after (p : Position) (t : Text) : Position :=
  t.foldl advance p

/-- The position that many lines further down. -/
def down (n : Nat) (p : Position) : Position :=
  ⟨p.line + n, p.column⟩

@[simp] theorem after_nil (p : Position) : p.after [] = p := rfl

@[simp] theorem after_cons (p : Position) (c : Char) (t : Text) :
    p.after (c :: t) = (p.advance c).after t := rfl

@[simp] theorem after_append (p : Position) (a b : Text) :
    p.after (a ++ b) = (p.after a).after b :=
  List.foldl_append

@[simp] theorem advance_newline (p : Position) : p.advance '\n' = ⟨p.line + 1, 1⟩ := rfl

theorem advance_of_ne {c : Char} (hc : c ≠ '\n') (p : Position) :
    p.advance c = ⟨p.line, p.column + 1⟩ :=
  if_neg hc

@[simp] theorem line_down (n : Nat) (p : Position) : (p.down n).line = p.line + n := rfl

@[simp] theorem column_down (n : Nat) (p : Position) : (p.down n).column = p.column := rfl

theorem down_advance (n : Nat) (p : Position) (c : Char) :
    (p.down n).advance c = (p.advance c).down n := by
  by_cases hc : c = '\n'
  · subst hc
    simp [down, Nat.add_right_comm]
  · rw [advance_of_ne hc, advance_of_ne hc]
    rfl

theorem down_after (n : Nat) (p : Position) (t : Text) :
    (p.down n).after t = (p.after t).down n := by
  induction t generalizing p with
  | nil => rfl
  | cons c rest ih => rw [after_cons, after_cons, down_advance, ih]

theorem line_after (p : Position) (t : Text) : (p.after t).line = p.line + t.count '\n' := by
  induction t generalizing p with
  | nil => rfl
  | cons c rest ih =>
      rw [after_cons, ih]
      by_cases hc : c = '\n'
      · subst hc
        rw [advance_newline, List.count_cons_self, Nat.add_assoc, Nat.add_comm 1]
      · rw [advance_of_ne hc, List.count_cons_of_ne (by simpa using hc)]

/-- A text without line feeds moves a position along its line. -/
theorem after_of_newline_not_mem (p : Position) {t : Text} (h : '\n' ∉ t) :
    p.after t = ⟨p.line, p.column + t.length⟩ := by
  induction t generalizing p with
  | nil => rfl
  | cons c rest ih =>
      have hc : c ≠ '\n' := fun heq => h (heq ▸ List.mem_cons_self)
      rw [after_cons, advance_of_ne hc, ih _ fun hrest => h (List.mem_cons_of_mem _ hrest),
        List.length_cons]
      simp only [mk.injEq, true_and]
      omega

theorem after_newline (p : Position) (t : Text) :
    p.after (t ++ ['\n']) = ⟨p.line + t.count '\n' + 1, 1⟩ := by
  rw [after_append, after_cons, after_nil, advance_newline, line_after]

/-- Whole lines move the start of a line to that of another. -/
theorem after_terminated (n : Nat) {lines : List Text} (h : ∀ line ∈ lines, '\n' ∉ line) :
    after ⟨n, 1⟩ (Text.terminated lines) = ⟨n + lines.length, 1⟩ := by
  induction lines generalizing n with
  | nil => rfl
  | cons line rest ih =>
      have hline : line.count '\n' = 0 := List.count_eq_zero.mpr (h line List.mem_cons_self)
      have hcons : Text.terminated (line :: rest) = (line ++ ['\n']) ++ Text.terminated rest := by
        simp
      rw [hcons, after_append, after_newline, hline,
        ih _ fun l hl => h l (List.mem_cons_of_mem _ hl), List.length_cons, Nat.add_zero,
        Nat.add_assoc, Nat.add_comm 1]

theorem atOrBefore_iff (p q : Position) :
    p.atOrBefore q = true ↔ p.line < q.line ∨ p.line = q.line ∧ p.column ≤ q.column := by
  simp [atOrBefore]

theorem line_le_of_atOrBefore {p q : Position} (h : p.atOrBefore q = true) : p.line ≤ q.line := by
  rw [atOrBefore_iff] at h
  omega

end Position

namespace Text

open Position

@[simp] theorem positionFrom_zero (p : Position) (t : Text) : positionFrom p 0 t = p := by
  cases t <;> simp [positionFrom]

/-- A position behind a first part is one in the second part. -/
theorem positionFrom_size_add (p : Position) (a : Text) (n : Nat) (b : Text) :
    positionFrom p (size a + n) (a ++ b) = positionFrom (p.after a) n b := by
  induction a generalizing p with
  | nil => rw [size_nil, Nat.zero_add, List.nil_append, after_nil]
  | cons c rest ih =>
      have hpos := Nat.ne_of_gt c.utf8Size_pos
      rw [List.cons_append, positionFrom, size_cons, after_cons, if_neg (by omega), Nat.add_assoc]
      by_cases hc : c = '\n'
      · subst hc
        rw [if_pos rfl, utf8Size_newline, Nat.add_sub_cancel_left, ih, advance_newline]
      · rw [if_neg hc, Nat.add_sub_cancel_left, ih, advance_of_ne hc]

theorem positionFrom_size_append (p : Position) (a b : Text) :
    positionFrom p (size a) (a ++ b) = p.after a := by
  rw [← Nat.add_zero (size a), positionFrom_size_add, positionFrom_zero]

/-- A position in a text stays where it is when the text goes on. -/
theorem positionFrom_append {n : Nat} {a : Text} (h : n ≤ size a) (p : Position) (b : Text) :
    positionFrom p n (a ++ b) = positionFrom p n a := by
  induction a generalizing n p with
  | nil =>
      obtain rfl := Nat.le_zero.mp h
      rw [positionFrom_zero, positionFrom_zero]
  | cons c rest ih =>
      rw [size_cons] at h
      by_cases hn : n = 0
      · simp [positionFrom, hn]
      · rw [List.cons_append, positionFrom, positionFrom, if_neg hn, if_neg hn]
        by_cases hc : c = '\n'
        · subst hc
          rw [utf8Size_newline] at h
          rw [if_pos rfl, if_pos rfl, ih (by omega)]
        · rw [if_neg hc, if_neg hc, ih (by omega)]

theorem positionFrom_down (k n : Nat) (p : Position) (t : Text) :
    positionFrom (p.down k) n t = (positionFrom p n t).down k := by
  induction t generalizing n p with
  | nil => rfl
  | cons c rest ih =>
      rw [positionFrom, positionFrom]
      by_cases hn : n = 0
      · rw [if_pos hn, if_pos hn]
      · rw [if_neg hn, if_neg hn]
        by_cases hc : c = '\n'
        · rw [if_pos hc, if_pos hc, ← ih]
          simp [down, Nat.add_right_comm]
        · rw [if_neg hc, if_neg hc, ← ih]
          rfl

/-- A position in a text lies on one of its lines. -/
theorem line_positionFrom (p : Position) (n : Nat) (t : Text) :
    p.line ≤ (positionFrom p n t).line ∧
      (positionFrom p n t).line ≤ p.line + t.count '\n' := by
  induction t generalizing p n with
  | nil => exact ⟨Nat.le_refl _, Nat.le_refl _⟩
  | cons c rest ih =>
      by_cases hn : n = 0
      · rw [positionFrom, if_pos hn]
        exact ⟨Nat.le_refl _, Nat.le_add_right _ _⟩
      · by_cases hc : c = '\n'
        · subst hc
          have hrest := ih ⟨p.line + 1, 1⟩ (n - 1)
          rw [positionFrom, if_neg hn, if_pos rfl, List.count_cons_self]
          simp only at hrest
          omega
        · rw [positionFrom, if_neg hn, if_neg hc, List.count_cons_of_ne (by simpa using hc)]
          exact ih ⟨p.line, p.column + 1⟩ (n - c.utf8Size)

/-- The position of a cut is the one behind the part before it. -/
theorem position_size_append (a b : Text) :
    position (a ++ b) (size a) = Position.after ⟨1, 1⟩ a :=
  positionFrom_size_append ⟨1, 1⟩ a b

/-- A cut stands in a line: the part before it is whole lines and what the line holds before it. The
line goes on behind the cut, and other lines follow. -/
structure LineAt (a b : Text) (earlier : List Text) (own rest : Text) (later : List Text) :
    Prop where
  before : a = terminated earlier ++ own
  behind : b = rest ++ preceded later
  lines : (a ++ b).lines = earlier ++ (own ++ rest) :: later
  position : position (a ++ b) (size a) = ⟨earlier.length + 1, own.length + 1⟩

theorem exists_lineAt (a b : Text) :
    ∃ earlier own rest later, LineAt a b earlier own rest later := by
  have hsnoc : a.lines.dropLast ++ [a.lines.getLast (lines_ne_nil a)] = a.lines :=
    List.dropLast_append_getLast (lines_ne_nil a)
  obtain ⟨rest, later, hb⟩ := List.exists_cons_of_ne_nil (lines_ne_nil b)
  generalize hown : a.lines.getLast (lines_ne_nil a) = own at hsnoc
  generalize a.lines.dropLast = earlier at hsnoc
  have hfree : ∀ line ∈ earlier ++ [own], '\n' ∉ line := fun line hline =>
    newline_not_mem_of_mem_lines (hsnoc ▸ hline)
  have hearlier : ∀ line ∈ earlier, '\n' ∉ line := fun line hline =>
    hfree line (List.mem_append_left _ hline)
  have hownfree : '\n' ∉ own := hfree own (List.mem_append_right _ List.mem_cons_self)
  have ha : a = terminated earlier ++ own := by
    conv_lhs => rw [← intercalate_lines a, ← hsnoc]
    rw [intercalate_terminated_append _ (by simp)]
    simp [List.intercalate]
  refine ⟨earlier, own, rest, later, ha, ?_, ?_, ?_⟩
  · rw [← intercalate_cons, ← hb, intercalate_lines]
  · rw [ha, List.append_assoc, lines_terminated_append hearlier,
      lines_append_of_newline_not_mem hownfree hb]
  · rw [position_size_append, ha, after_append, after_of_newline_not_mem _ hownfree]
    rw [after_terminated 1 hearlier, Nat.add_comm 1, Nat.add_comm 1]

theorem LineAt.exists_rest {a b rest own : Text} {c : Char} {earlier later : List Text}
    (h : LineAt a (c :: b) earlier own rest later) (hc : c ≠ '\n') :
    ∃ more, rest = c :: more := by
  cases rest with
  | nil =>
      cases later with
      | nil => exact absurd h.behind (by simp)
      | cons line more =>
          have hhead := h.behind
          rw [List.nil_append, preceded_cons, List.cons_append] at hhead
          exact absurd (List.cons.inj hhead).1 hc
  | cons d more =>
      obtain ⟨rfl, -⟩ := List.cons.inj h.behind
      exact ⟨more, rfl⟩

theorem line_position (a b : Text) : (position (a ++ b) (size a)).line = a.count '\n' + 1 := by
  rw [position_size_append, line_after, Nat.add_comm]

theorem lineStartFrom_length (offset : Nat) (before after : List Text) :
    lineStartFrom offset before.length (before ++ after) = offset + size (terminated before) := by
  induction before generalizing offset with
  | nil => rfl
  | cons line rest ih =>
      rw [List.length_cons, List.cons_append, lineStartFrom, ih, terminated_cons, size_append,
        size_cons, utf8Size_newline]
      omega

/-- A line that the text has has an offset for each of its columns. -/
theorem offset?_eq {t : Text} {before after : List Text} {line : Text} {p : Position}
    (hlines : t.lines = before ++ line :: after) (hp : p.line = before.length + 1) :
    t.offset? p =
      some (size (terminated before) + size ((trimReturns line).take (p.column - 1))) := by
  have hline : t.line? p.line = some (trimReturns line) := by
    simp [line?, hp, hlines]
  rw [offset?, hline, Option.map_some, hp, Nat.add_sub_cancel, hlines, lineStartFrom_length,
    Nat.zero_add]

theorem exists_line_of_le {t : Text} {p : Position} (hfirst : 1 ≤ p.line)
    (hlast : p.line ≤ t.lineCount) :
    ∃ before line after, t.lines = before ++ line :: after ∧ p.line = before.length + 1 := by
  have hlt : p.line - 1 < t.lines.length := by
    rw [← lineCount]
    omega
  refine ⟨t.lines.take (p.line - 1), t.lines[p.line - 1], t.lines.drop (p.line - 1 + 1), ?_, ?_⟩
  · rw [← List.drop_eq_getElem_cons hlt, List.take_append_drop]
  · rw [List.length_take]
    omega

theorem exists_line_of_offset? {t : Text} {p : Position} {n : Nat} (h : t.offset? p = some n) :
    ∃ before line after, t.lines = before ++ line :: after ∧ p.line = before.length + 1 := by
  obtain ⟨trimmed, hline, -⟩ := Option.map_eq_some_iff.mp h
  rw [line?] at hline
  split at hline
  · contradiction
  · obtain ⟨line, hget, -⟩ := Option.map_eq_some_iff.mp hline
    have hlt := (List.getElem?_eq_some_iff.mp hget).1
    exact exists_line_of_le (by omega) (by rw [lineCount]; omega)

theorem exists_append_cons_of_length_lt {α : Type} {xs ys xs' ys' : List α} {x : α}
    (h : xs ++ x :: xs' = ys ++ ys') (hlt : xs.length < ys.length) :
    ∃ more, ys = xs ++ x :: more := by
  rcases List.append_eq_append_iff.mp h with ⟨m, hys, hm⟩ | ⟨m, hxs, -⟩
  · cases m with
    | nil =>
        rw [hys, List.append_nil] at hlt
        omega
    | cons y more =>
        obtain ⟨rfl, -⟩ := List.cons.inj hm
        exact ⟨more, hys⟩
  · rw [hxs, List.length_append] at hlt
    omega

theorem size_take_trimReturns_le (line : Text) (n : Nat) :
    size ((trimReturns line).take n) ≤ size (line.take n) := by
  obtain ⟨tail, htail, -⟩ := exists_dropEndWhile (· == '\r') line
  conv_rhs => rw [htail, List.take_append, size_append]
  exact Nat.le_add_right _ _

/-- A position at or before a cut has an offset, which does not lie behind the cut. -/
theorem exists_offset?_le {a b : Text} {p : Position} (hline : 1 ≤ p.line)
    (hp : p.atOrBefore (position (a ++ b) (size a)) = true) :
    ∃ n, (a ++ b).offset? p = some n ∧ n ≤ size a := by
  obtain ⟨earlier, own, rest, later, hcut⟩ := exists_lineAt a b
  rw [hcut.position, atOrBefore_iff] at hp
  have hcount : p.line ≤ (a ++ b).lineCount := by
    rw [lineCount, hcut.lines, List.length_append, List.length_cons]
    rcases hp with hlt | ⟨heq, -⟩ <;> simp only at * <;> omega
  obtain ⟨before, line, after, hlines, hpline⟩ := exists_line_of_le hline hcount
  refine ⟨_, offset?_eq hlines hpline, ?_⟩
  rw [hcut.lines] at hlines
  rw [hcut.before, size_append]
  have hclamp := size_take_trimReturns_le line (p.column - 1)
  rcases hp with hlt | ⟨heq, hcolumn⟩
  · obtain ⟨more, rfl⟩ := exists_append_cons_of_length_lt hlines.symm (by simp only at hlt; omega)
    have hwhole := size_take_le line (p.column - 1)
    simp only [terminated_append, terminated_cons, size_append, size_cons]
    omega
  · obtain ⟨rfl, hown⟩ := List.append_inj hlines (by simp only at heq; omega)
    obtain ⟨rfl, -⟩ := List.cons.inj hown
    have hmono := size_take_mono (own ++ rest) (n := own.length) (m := p.column - 1)
      (by simp only at hcolumn; omega)
    rw [List.take_left] at hmono
    omega

theorem ne_of_isBlank_eq_false {c d : Char} (hc : CharClass.isBlank c = false)
    (hd : CharClass.isBlank d = true) : c ≠ d := by
  rintro rfl
  simp [hc] at hd

/-- The offset of a position at or behind a cut does not lie before the cut, if no blank follows the
cut. -/
theorem le_offset? {a b : Text} {c : Char} {p : Position} {n : Nat}
    (hc : CharClass.isBlank c = false)
    (hp : (position (a ++ c :: b) (size a)).atOrBefore p = true)
    (hn : (a ++ c :: b).offset? p = some n) : size a ≤ n := by
  obtain ⟨earlier, own, rest, later, hcut⟩ := exists_lineAt a (c :: b)
  rw [hcut.position, atOrBefore_iff] at hp
  obtain ⟨before, line, after, hlines, hpline⟩ := exists_line_of_offset? hn
  rw [offset?_eq hlines hpline, Option.some.injEq] at hn
  rw [hcut.lines] at hlines
  rw [hcut.before, size_append, ← hn]
  rcases hp with hlt | ⟨heq, hcolumn⟩
  · obtain ⟨more, rfl⟩ := exists_append_cons_of_length_lt hlines (by simp only at hlt; omega)
    simp only [terminated_append, terminated_cons, size_append, size_cons]
    omega
  · obtain ⟨rfl, hown⟩ := List.append_inj hlines (by simp only at heq; omega)
    obtain ⟨rfl, -⟩ := List.cons.inj hown
    obtain ⟨rest, rfl⟩ := hcut.exists_rest (ne_of_isBlank_eq_false hc (by decide))
    have hkept : trimReturns (own ++ c :: rest) = own ++ c :: trimReturns rest :=
      dropEndWhile_append_cons _ own rest
        (beq_eq_false_iff_ne.mpr (ne_of_isBlank_eq_false hc (by decide)))
    have hmono := size_take_mono (own ++ c :: trimReturns rest) (m := own.length)
      (n := p.column - 1) (by simp only at hcolumn; omega)
    rw [List.take_left, ← hkept] at hmono
    omega

end Text

end SqlInsight
