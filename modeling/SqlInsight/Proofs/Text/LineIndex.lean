/-
Positions and offsets determine each other. Each cut of a text has a position on one of its lines,
and a cut further on has a later position. The text of a line stands between the line feed before it
and the carriage returns and the line feed that end it: a position on the line leads to a cut of
that text, and the cut back to the position, with its column clamped; a cut behind the text of its
line leads to the end of that text.
-/
import SqlInsight.Proofs.Text.Positions
import SqlInsight.Proofs.Text.Utf8

namespace SqlInsight

namespace Position

theorem before_iff (p q : Position) :
    p.before q = true ↔ p.line < q.line ∨ p.line = q.line ∧ p.column < q.column := by
  simp [before]

/-- What stands behind a position is at a later one. -/
theorem before_after (p : Position) {t : Text} (ht : t ≠ []) : p.before (p.after t) = true := by
  rw [before_iff]
  by_cases hfeed : '\n' ∈ t
  · have hcount := List.count_pos_iff.mpr hfeed
    rw [line_after]
    omega
  · have hlength := List.length_pos_iff.mpr ht
    rw [after_of_newline_not_mem p hfeed]
    simp only [true_and]
    omega

/-- A text of whole lines leads to the start of a line. -/
theorem after_of_getLast? {t : Text} (h : ∀ c, t.getLast? = some c → c = '\n') :
    after ⟨1, 1⟩ t = ⟨t.count '\n' + 1, 1⟩ := by
  rcases List.eq_nil_or_concat t with rfl | ⟨first, c, rfl⟩
  · rfl
  · obtain rfl := h c (by simp)
    rw [List.concat_eq_append, after_newline, List.count_append, List.count_singleton_self,
      Nat.add_comm 1]

/-- A position with its column clamped to the characters of its line and the place behind them. -/
def clamped (p : Position) (line : Text) : Position :=
  ⟨p.line, max 1 (min p.column (line.length + 1))⟩

end Position

namespace Text

open Position

/-- A cut further on has a later position. -/
theorem position_before {t : Text} {m n : Nat} (hm : IsCut t m) (hn : IsCut t n) (h : m < n) :
    (t.position m).before (t.position n) = true := by
  obtain ⟨u, v, w, rfl, rfl, rfl⟩ := hm.exists_append hn (Nat.le_of_lt h)
  have hv : v ≠ [] := by
    rintro rfl
    simp at h
  have hbehind : position (u ++ v ++ w) (size (u ++ v)) = Position.after ⟨1, 1⟩ (u ++ v) :=
    position_size_append (u ++ v) w
  have hbefore : position (u ++ v ++ w) (size u) = Position.after ⟨1, 1⟩ u := by
    rw [List.append_assoc]
    exact position_size_append u (v ++ w)
  rw [hbehind, hbefore, Position.after_append]
  exact before_after _ hv

/-- The text of the line numbered `l` stands in a text behind `before`: from behind a line feed, if
not from the start, up to the carriage returns that a line feed or the end follows. -/
structure LineStands (t : Text) (l : Nat) (before line behind : Text) : Prop where
  text : t = before ++ line ++ behind
  number : before.count '\n' + 1 = l
  starts : ∀ c, before.getLast? = some c → c = '\n'
  whole : '\n' ∉ line
  trimmed : line.getLast? ≠ some '\r'
  ends : ∃ returns rest, behind = returns ++ rest ∧ (∀ c ∈ returns, c = '\r') ∧
    ∀ c, rest.head? = some c → c = '\n'
  line? : t.line? l = some line

theorem getLast?_terminated {lines : List Text} {c : Char}
    (h : (terminated lines).getLast? = some c) : c = '\n' := by
  rcases List.eq_nil_or_concat lines with rfl | ⟨first, line, rfl⟩
  · contradiction
  · simpa [eq_comm] using h

theorem head?_preceded {lines : List Text} {c : Char}
    (h : (preceded lines).head? = some c) : c = '\n' := by
  cases lines with
  | nil => contradiction
  | cons line rest => simpa [eq_comm] using h

/-- Every line stands in its text without the carriage returns that end it. -/
theorem exists_lineStands {t own : Text} {earlier later : List Text}
    (hlines : t.lines = earlier ++ own :: later) :
    ∃ behind, LineStands t (earlier.length + 1) (terminated earlier) (trimReturns own) behind := by
  obtain ⟨returns, hown, hreturns⟩ := exists_dropEndWhile (· == '\r') own
  have hfree : ∀ line ∈ earlier ++ own :: later, '\n' ∉ line := fun line hline =>
    newline_not_mem_of_mem_lines (hlines ▸ hline)
  refine ⟨returns ++ preceded later, ?_, ?_, fun c => getLast?_terminated, ?_, ?_,
    ⟨returns, preceded later, rfl, ?_, fun c => head?_preceded⟩, ?_⟩
  · have ht := intercalate_lines t
    rw [hlines, intercalate_terminated_append _ (List.cons_ne_nil own later),
      intercalate_cons] at ht
    conv at ht => lhs; rw [hown]
    rw [← ht, trimReturns]
    simp only [List.append_assoc]
  · rw [count_newline_terminated fun line hline => hfree line (List.mem_append_left _ hline)]
  · intro hmem
    refine hfree own (List.mem_append_right _ List.mem_cons_self) ?_
    rw [hown]
    exact List.mem_append_left _ hmem
  · intro hlast
    simpa using dropEndWhile_getLast? _ _ hlast
  · intro c hc
    simpa using hreturns c hc
  · simp [Text.line?, hlines]

/-- Of two texts that begin the same text, as much of the one as the other is long is the lesser. -/
theorem size_take_of_isPrefix {a b t : Text} (ha : a <+: t) (hb : b <+: t) :
    size (b.take a.length) = min (size a) (size b) := by
  rcases List.prefix_or_prefix_of_prefix ha hb with hle | hle
  · rw [← List.prefix_iff_eq_take.mp hle, Nat.min_eq_left (size_le_of_isPrefix hle)]
  · rw [List.take_of_length_le hle.length_le, Nat.min_eq_right (size_le_of_isPrefix hle)]

/-- The position of a cut leads back to the cut, or to the end of the text of its line, if the cut
stands behind that. -/
theorem exists_offset?_position {t : Text} {n : Nat} (h : IsCut t n) :
    ∃ before line behind, LineStands t (t.position n).line before line behind ∧
      size before ≤ n ∧ t.offset? (t.position n) = some (min n (size (before ++ line))) := by
  obtain ⟨a, b, rfl, rfl⟩ := h
  obtain ⟨earlier, own, rest, later, hcut⟩ := exists_lineAt a b
  obtain ⟨behind, hstands⟩ := exists_lineStands hcut.lines
  have hprefix := size_take_of_isPrefix (List.prefix_append own rest)
    (dropEndWhile_isPrefix (· == '\r') (own ++ rest))
  refine ⟨terminated earlier, trimReturns (own ++ rest), behind, ?_, ?_, ?_⟩
  · rw [hcut.position]
    exact hstands
  · rw [hcut.before, size_append]
    exact Nat.le_add_right _ _
  · rw [hcut.position, offset?_eq hcut.lines rfl, hcut.before, size_append, size_append,
      Nat.add_min_add_left, Nat.add_sub_cancel, trimReturns, hprefix]

/-- So many characters of the text of a line lead along the line. -/
theorem LineStands.position {t before line behind : Text} {l : Nat}
    (h : LineStands t l before line behind) (n : Nat) :
    IsCut t (size before + size (line.take n)) ∧
      t.position (size before + size (line.take n)) = ⟨l, min n line.length + 1⟩ := by
  have htext : t = (before ++ line.take n) ++ (line.drop n ++ behind) := by
    rw [h.text, List.append_assoc, List.append_assoc, ← List.append_assoc (line.take n),
      List.take_append_drop]
  have hwhole : '\n' ∉ line.take n := fun hmem => h.whole (List.mem_of_mem_take hmem)
  rw [← size_append]
  constructor
  · exact ⟨_, _, htext, rfl⟩
  · conv_lhs => rw [htext]
    rw [position_size_append, after_append, after_of_getLast? h.starts, h.number,
      after_of_newline_not_mem _ hwhole, List.length_take, Nat.add_comm]

/-- The positions on a line lead to cuts of the text, and these back to the positions, with the
column clamped. -/
theorem exists_position_offset? {t : Text} {l : Nat} (hfirst : 1 ≤ l) (hlast : l ≤ t.lineCount) :
    ∃ before line behind, LineStands t l before line behind ∧ ∀ c, ∃ n,
      t.offset? ⟨l, c⟩ = some n ∧ IsCut t n ∧ t.position n = Position.clamped ⟨l, c⟩ line := by
  obtain ⟨earlier, own, later, hlines, hl⟩ := exists_line_of_le (p := ⟨l, 1⟩) hfirst hlast
  obtain ⟨behind, hstands⟩ := exists_lineStands hlines
  simp only at hl
  subst hl
  refine ⟨terminated earlier, trimReturns own, behind, hstands, fun c => ?_⟩
  obtain ⟨hcut, hposition⟩ := hstands.position (c - 1)
  refine ⟨_, offset?_eq hlines rfl, hcut, ?_⟩
  rw [hposition, clamped, Position.mk.injEq]
  exact ⟨rfl, by simp only; omega⟩

theorem one_le_column_position (t : Text) {n : Nat} (h : IsCut t n) :
    1 ≤ (t.position n).column := by
  obtain ⟨a, b, rfl, rfl⟩ := h
  obtain ⟨earlier, own, rest, later, hcut⟩ := exists_lineAt a b
  rw [hcut.position]
  exact Nat.le_add_left 1 _

theorem line_position_le (t : Text) (n : Nat) :
    1 ≤ (t.position n).line ∧ (t.position n).line ≤ t.lineCount := by
  obtain ⟨hfirst, hlast⟩ := line_positionFrom ⟨1, 1⟩ n t
  rw [lineCount, length_lines, Nat.add_comm]
  exact ⟨hfirst, hlast⟩

/-- Positions and offsets are exact. A boundary has a position on a line of the text, and later
boundaries have later positions; the offset of the position is the boundary, or the end of the text
of its line if the boundary lies behind that. And on each line every column has an offset, a
boundary, whose position is the line and the column clamped to the characters of the line. -/
theorem positions_exact (t : Text) :
    (∀ o, t.isBoundary o = true →
      1 ≤ (t.position o).line ∧ (t.position o).line ≤ t.lineCount ∧ 1 ≤ (t.position o).column) ∧
    (∀ o o', t.isBoundary o = true → t.isBoundary o' = true → o < o' →
      (t.position o).before (t.position o') = true) ∧
    (∀ o, t.isBoundary o = true → ∃ before line behind,
      LineStands t (t.position o).line before line behind ∧ size before ≤ o ∧
        t.offset? (t.position o) = some (min o (size (before ++ line)))) ∧
    ∀ l, 1 ≤ l → l ≤ t.lineCount → ∃ before line behind, LineStands t l before line behind ∧
      ∀ c, ∃ o, t.offset? ⟨l, c⟩ = some o ∧ t.isBoundary o = true ∧
        t.position o = Position.clamped ⟨l, c⟩ line := by
  simp only [isBoundary_iff_isCut]
  refine ⟨fun o ho => ?_, fun o o' => position_before, fun o => exists_offset?_position,
    fun l => exists_position_offset?⟩
  obtain ⟨hfirst, hlast⟩ := line_position_le t o
  exact ⟨hfirst, hlast, one_le_column_position t ho⟩

/-- A column behind a line that ends with a carriage return leads to the end of its text. -/
example : offset? "SELECT 1\r\nGO".toList ⟨1, 50⟩ = some 8 := by decide

end Text

end SqlInsight
