/-
The lines of a masked buffer. A mask keeps the line feeds and the size of every line, so a masked
line is the slice of the mask between the offsets of the line itself. Between two neighbours there
is nothing but line breaks, and every character that is no blank lies on one of the lines.
-/
import SqlInsight.Proofs.Text.Cut
import SqlInsight.Proofs.Text.Positions
import SqlInsight.Span.Locate

namespace SqlInsight

namespace Text

theorem eq_terminated_append {t line : Text} {before after : List Text}
    (h : t.lines = before ++ line :: after) : t = terminated before ++ line ++ preceded after := by
  have hlines : t.lines = before ++ [line] ++ after := by rw [h]; simp
  have ht := eq_of_lines_append hlines (by simp)
  simpa [List.intercalate] using ht

theorem exists_terminated_of_isLineStart {a : Text} (h : a.IsLineStart) :
    ∃ lines, a = terminated lines ∧ ∀ line ∈ lines, '\n' ∉ line := by
  rcases h with rfl | ⟨head, rfl⟩
  · exact ⟨[], rfl, by simp⟩
  · refine ⟨head.lines, ?_, fun line => newline_not_mem_of_mem_lines⟩
    rw [terminated_eq (lines_ne_nil head), intercalate_lines]

/-- A mask of whole lines is whole lines. -/
theorem isLineStart_maskOf (m : Mask) {u : List (Char × Region)} {before : List Text}
    (hu : u.map Prod.fst = terminated before) : (maskOf m u).IsLineStart := by
  by_cases hbefore : before = []
  · subst hbefore
    obtain rfl := List.map_eq_nil_iff.mp hu
    exact Or.inl rfl
  · rw [terminated_eq hbefore] at hu
    obtain ⟨u, last, rfl, -, hlast⟩ := List.map_eq_append_iff.mp hu
    obtain ⟨x, rfl, hx⟩ := List.map_eq_singleton_iff.mp hlast
    refine Or.inr ⟨maskOf m u, ?_⟩
    rw [maskOf_append]
    congr 1
    obtain ⟨c, r⟩ := x
    obtain rfl : c = '\n' := hx
    by_cases hmasked : r.isMasked m = true
    · simp [maskOf, hmasked, blanks]
    · simp [maskOf, hmasked]

/-- A mask leaves the lines where they are. -/
theorem exists_lines_mask (m : Mask) {t line : Text} {before after : List Text}
    (h : t.lines = before ++ line :: after) :
    ∃ before' after', before'.length = before.length ∧ (t.mask m).lines = before' ++
      slice (t.mask m) (size (terminated before)) (size (terminated before) + size line) ::
        after' := by
  obtain ⟨u, v, w, hmask, hu, hv, hw, husize, hvsize⟩ :=
    exists_mask_append m (eq_terminated_append h)
  have hslice : slice (t.mask m) (size (terminated before))
      (size (terminated before) + size line) = maskOf m v := by
    apply slice_of_eq hmask husize.symm
    rw [size_append, husize, hvsize]
  have hfree (l : Text) (hl : l ∈ t.lines) : '\n' ∉ l := newline_not_mem_of_mem_lines hl
  have hbefore : ∀ l ∈ before, '\n' ∉ l := fun l hl => hfree l (by rw [h]; simp [hl])
  obtain ⟨before', hterminated, hbefore'⟩ :=
    exists_terminated_of_isLineStart (isLineStart_maskOf m hu)
  have hlength : before'.length = before.length := by
    rw [← count_newline_terminated hbefore', ← hterminated, count_newline_maskOf, hu,
      count_newline_terminated hbefore]
  have hline : '\n' ∉ maskOf m v := by
    rw [← List.count_eq_zero, count_newline_maskOf, hv, List.count_eq_zero]
    exact hfree line (by rw [h]; simp)
  have hrest : ∃ after', (maskOf m v ++ maskOf m w).lines = maskOf m v :: after' := by
    cases after with
    | nil =>
        obtain rfl := List.map_eq_nil_iff.mp hw
        refine ⟨[], ?_⟩
        rw [maskOf, maskOf, List.flatMap_nil, List.append_nil, ← maskOf]
        exact lines_of_newline_not_mem hline
    | cons next more =>
        obtain ⟨x, w, rfl, hx, -⟩ := List.map_eq_cons_iff.mp hw
        obtain ⟨c, r⟩ := x
        obtain rfl : c = '\n' := hx
        have hhead : maskOf m (('\n', r) :: w) = '\n' :: maskOf m w := by
          by_cases hmasked : r.isMasked m = true
          · simp [maskOf, hmasked, blanks]
          · simp [maskOf, hmasked]
        refine ⟨(maskOf m w).lines, ?_⟩
        rw [hhead, lines_append_newline, lines_of_newline_not_mem hline, List.singleton_append]
  obtain ⟨after', hafter'⟩ := hrest
  refine ⟨before', after', hlength, ?_⟩
  rw [hslice, hmask, hterminated, List.append_assoc, lines_terminated_append hbefore', hafter']

theorem takeBytes_takeBytes {m n : Nat} (h : m ≤ n) (t : Text) :
    takeBytes m (takeBytes n t) = takeBytes m t := by
  induction t generalizing m n with
  | nil => rfl
  | cons c rest ih =>
      by_cases hm : m = 0
      · rw [hm, takeBytes_zero, takeBytes_zero]
      · have hn : n ≠ 0 := by omega
        simp only [takeBytes, hn, hm, ↓reduceIte]
        rw [ih (Nat.sub_le_sub_right h _)]

theorem exists_trimReturns (line : Text) :
    ∃ returns, line = trimReturns line ++ returns ∧ ∀ c ∈ returns, c = '\r' := by
  obtain ⟨returns, hline, hreturns⟩ := exists_dropEndWhile (· == '\r') line
  exact ⟨returns, hline, fun c hc => by simpa using hreturns c hc⟩

/-- A position that a buffer has cuts it within one of its lines, in front of the returns that end
the line. -/
theorem exists_cut_of_offset? {t : Text} {p : Position} {n : Nat} (h : t.offset? p = some n) :
    ∃ before line after rest, t.lines = before ++ line :: after ∧ p.line = before.length + 1 ∧
      t = terminated before ++ (trimReturns line).take (p.column - 1) ++ rest ∧
      n = size (terminated before ++ (trimReturns line).take (p.column - 1)) := by
  obtain ⟨before, line, after, hlines, hline⟩ := exists_line_of_offset? h
  rw [offset?_eq hlines hline, Option.some.injEq] at h
  obtain ⟨returns, htrim, -⟩ := exists_trimReturns line
  refine ⟨before, line, after, (trimReturns line).drop (p.column - 1) ++ returns ++ preceded after,
    hlines, hline, ?_, by rw [size_append, h]⟩
  rw [eq_terminated_append hlines]
  conv_lhs => rw [htrim, ← List.take_append_drop (p.column - 1) (trimReturns line)]
  simp only [List.append_assoc]

end Text

open Text

namespace Span

namespace MaskedLine

/-- A masked line stands in a buffer: it is the mask between two cuts. -/
structure StandsIn (t : Text) (l : MaskedLine) : Prop where
  isCut_first : IsCut t l.first
  isCut_last : IsCut t l.last
  first_le_last : l.first ≤ l.last
  text_eq : l.text = slice (t.mask .identifiers) l.first l.last

/-- The masked form of the line that stands behind the lines `before`. -/
def ofLine (t : Text) (before : List Text) (line : Text) : MaskedLine :=
  let first := size (terminated before)
  let last := first + size (trimReturns line)
  ⟨first, last, slice (t.mask .identifiers) first last⟩

theorem standsIn_ofLine {t line : Text} {before after : List Text}
    (h : t.lines = before ++ line :: after) : (ofLine t before line).StandsIn t := by
  obtain ⟨returns, hline, -⟩ := exists_trimReturns line
  have ht := eq_terminated_append h
  refine ⟨⟨terminated before, line ++ preceded after, ?_, rfl⟩,
    ⟨terminated before ++ trimReturns line, returns ++ preceded after, ?_, ?_⟩,
    Nat.le_add_right _ _, rfl⟩
  · rw [ht, List.append_assoc]
  · conv_lhs => rw [ht, hline]
    simp
  · rw [size_append]
    rfl

end MaskedLine

theorem maskedLinesFrom_append (offset : Nat) (first second : List (Text × Text)) :
    maskedLinesFrom offset (first ++ second) = maskedLinesFrom offset first ++
      maskedLinesFrom (offset + size (terminated (first.map Prod.fst))) second := by
  induction first generalizing offset with
  | nil => rfl
  | cons x rest ih =>
      obtain ⟨line, masked⟩ := x
      have hoffset : offset + size (terminated (line :: rest.map Prod.fst)) =
          offset + size line + 1 + size (terminated (rest.map Prod.fst)) := by
        rw [terminated_cons, size_append, size_cons, utf8Size_newline]
        omega
      rw [List.cons_append, maskedLinesFrom, maskedLinesFrom, ih, List.map_cons, hoffset]
      rfl

theorem length_maskedLinesFrom (offset : Nat) (lines : List (Text × Text)) :
    (maskedLinesFrom offset lines).length = lines.length := by
  induction lines generalizing offset with
  | nil => rfl
  | cons x rest ih => rw [maskedLinesFrom, List.length_cons, ih, List.length_cons]

theorem getElem?_maskedLines {t line : Text} {before after : List Text}
    (h : t.lines = before ++ line :: after) :
    (maskedLines t)[before.length]? = some (MaskedLine.ofLine t before line) := by
  obtain ⟨before', after', hlength, hmask⟩ := exists_lines_mask .identifiers h
  have hfst : (before.zip before').map Prod.fst = before := List.map_fst_zip hlength.ge
  have hzip : t.lines.zip (t.mask .identifiers).lines = before.zip before' ++
      (line, slice (t.mask .identifiers) (size (terminated before))
        (size (terminated before) + size line)) :: after.zip after' := by
    rw [h, hmask, List.zip_append hlength.symm, List.zip_cons_cons]
  have hlen : (maskedLinesFrom 0 (before.zip before')).length = before.length := by
    rw [length_maskedLinesFrom, List.length_zip, hlength, Nat.min_self]
  have hsize : size (trimReturns line) ≤ size line := by
    obtain ⟨returns, hline, -⟩ := exists_trimReturns line
    conv_rhs => rw [hline, size_append]
    exact Nat.le_add_right _ _
  rw [maskedLines, hzip, maskedLinesFrom_append, List.getElem?_append_right hlen.le, hlen,
    Nat.sub_self, hfst, Nat.zero_add, maskedLinesFrom, List.getElem?_cons_zero]
  rw [MaskedLine.ofLine, slice, slice, Nat.add_sub_cancel_left, takeBytes_takeBytes hsize,
    Nat.add_sub_cancel_left]

theorem length_maskedLines (t : Text) : (maskedLines t).length = t.lineCount := by
  rw [maskedLines, length_maskedLinesFrom, List.length_zip, length_lines, length_lines,
    count_newline_mask, Nat.min_self, lineCount, length_lines]

theorem exists_line_of_getElem? {t : Text} {i : Nat} {l : MaskedLine}
    (h : (maskedLines t)[i]? = some l) :
    ∃ before line after, t.lines = before ++ line :: after ∧ before.length = i ∧
      l = MaskedLine.ofLine t before line := by
  have hi : i < t.lineCount := by
    rw [← length_maskedLines]
    exact (List.getElem?_eq_some_iff.mp h).1
  obtain ⟨before, line, after, hlines, hline⟩ :=
    exists_line_of_le (t := t) (p := ⟨i + 1, 1⟩) (Nat.le_add_left _ _) hi
  obtain rfl : i = before.length := Nat.succ.inj hline
  rw [getElem?_maskedLines hlines] at h
  exact ⟨before, line, after, hlines, rfl, (Option.some.inj h).symm⟩

theorem standsIn_of_mem_maskedLines {t : Text} {l : MaskedLine} (h : l ∈ maskedLines t) :
    l.StandsIn t := by
  obtain ⟨i, hi⟩ := List.mem_iff_getElem?.mp h
  obtain ⟨before, line, after, hlines, -, rfl⟩ := exists_line_of_getElem? hi
  exact MaskedLine.standsIn_ofLine hlines

/-- A line ends before the next one begins. -/
theorem last_lt_first {t : Text} {i j : Nat} {l l' : MaskedLine}
    (h : (maskedLines t)[i]? = some l) (h' : (maskedLines t)[j]? = some l') (hlt : i < j) :
    l.last < l'.first := by
  obtain ⟨before, line, after, hlines, rfl, rfl⟩ := exists_line_of_getElem? h
  obtain ⟨before', line', after', hlines', rfl, rfl⟩ := exists_line_of_getElem? h'
  obtain ⟨more, rfl⟩ := exists_append_cons_of_length_lt (hlines.symm.trans hlines') hlt
  obtain ⟨returns, hline, -⟩ := exists_trimReturns line
  have hsize : size line = size (trimReturns line) + size returns := by
    conv_lhs => rw [hline, size_append]
  simp only [MaskedLine.ofLine, terminated_append, terminated_cons, size_append, size_cons,
    utf8Size_newline]
  omega

/-- A position that a buffer has lies on one of its lines, and at a cut. -/
theorem exists_maskedLine_of_offset? {t : Text} {p : Position} {n : Nat}
    (h : t.offset? p = some n) :
    ∃ l, (maskedLines t)[p.line - 1]? = some l ∧ 1 ≤ p.line ∧ IsCut t n ∧ l.first ≤ n ∧
      n ≤ l.last := by
  obtain ⟨before, line, after, rest, hlines, hline, hcut, rfl⟩ := exists_cut_of_offset? h
  have hindex : p.line - 1 = before.length := by omega
  refine ⟨MaskedLine.ofLine t before line, by rw [hindex, getElem?_maskedLines hlines], by omega,
    ⟨_, rest, hcut, rfl⟩, ?_, ?_⟩
  · rw [size_append]
    exact Nat.le_add_right _ _
  · rw [size_append]
    exact Nat.add_le_add_left (size_take_le (trimReturns line) (p.column - 1)) _

variable {t a b : Text} {c : Char}

/-- A character that is no blank lies on a line, the one of its position. -/
theorem exists_maskedLine_of_not_isBlank (ht : t = a ++ c :: b)
    (hc : CharClass.isBlank c = false) :
    ∃ i l, (maskedLines t)[i]? = some l ∧ l.first ≤ size a ∧ size a < l.last ∧
      (t.position (size a)).line = i + 1 := by
  subst ht
  obtain ⟨earlier, own, rest, later, hcut⟩ := exists_lineAt a (c :: b)
  obtain ⟨more, rfl⟩ := hcut.exists_rest (ne_of_isBlank_eq_false hc (by decide))
  have hkept : trimReturns (own ++ c :: more) = own ++ c :: trimReturns more :=
    dropEndWhile_append_cons _ own more
      (beq_eq_false_iff_ne.mpr (ne_of_isBlank_eq_false hc (by decide)))
  refine ⟨earlier.length, _, getElem?_maskedLines hcut.lines, ?_, ?_, by rw [hcut.position]⟩
  · rw [hcut.before, size_append]
    exact Nat.le_add_right _ _
  · simp only [MaskedLine.ofLine, hkept, hcut.before, size_append, size_cons]
    have hpos := c.utf8Size_pos
    omega

/-- The position of a character that is no blank has its offset. -/
theorem offset?_position (ht : t = a ++ c :: b) (hc : CharClass.isBlank c = false) :
    t.offset? (t.position (size a)) = some (size a) := by
  subst ht
  have hrefl : ((a ++ c :: b).position (size a)).atOrBefore ((a ++ c :: b).position (size a)) =
      true := by
    simp [Position.atOrBefore_iff]
  have hline : 1 ≤ ((a ++ c :: b).position (size a)).line := by
    rw [line_position]
    exact Nat.le_add_left _ _
  obtain ⟨n, hn, hle⟩ := exists_offset?_le hline hrefl
  have hge := le_offset? hc hrefl hn
  rw [hn, Nat.le_antisymm hle hge]

end Span

end SqlInsight
