/-
The lines around a batch. The line above it, if there is one, is a separator line, and so is the one
below, unless it is blank: a batch leaves out only the blank lines at its end. So the batch of a
line is that of the next one, when neither of them is blank or a separator line.
-/
import SqlInsight.Proofs.Batch.Stretches
import SqlInsight.Proofs.Span.MaskedLines

namespace SqlInsight

open Text

namespace Text

/-- Lines that are joined are told apart again. -/
theorem lines_intercalate {own : List Text} (hown : own ≠ []) (h : ∀ line ∈ own, '\n' ∉ line) :
    lines (List.intercalate ['\n'] own) = own := by
  obtain ⟨init, last, rfl⟩ := (List.eq_nil_or_concat own).resolve_left hown
  rw [List.concat_eq_append] at h ⊢
  have hinit : ∀ line ∈ init, '\n' ∉ line := fun line hl => h line (List.mem_append_left _ hl)
  have hlast : '\n' ∉ last := h last (by simp)
  have hsingle : List.intercalate ['\n'] [last] = last := by simp [List.intercalate]
  rw [intercalate_terminated_append init (by simp), hsingle, lines_terminated_append hinit,
    lines_of_newline_not_mem hlast]

/-- Of the line breaks that end a text the first line of their own holds carriage returns only. -/
theorem exists_line_of_lineBreaks {a breaks : Text} (h : ∀ c ∈ breaks, c = '\n' ∨ c = '\r')
    (hcount : '\n' ∈ breaks) :
    ∃ before line after, lines (a ++ breaks) = before ++ line :: after ∧
      before.length = a.count '\n' + 1 ∧ ∀ c ∈ line, c = '\r' := by
  obtain ⟨returns, rest, rfl, hfree⟩ := List.eq_append_cons_of_mem hcount
  obtain ⟨line, after, hrest⟩ := List.exists_cons_of_ne_nil (lines_ne_nil rest)
  have hline : line ∈ lines rest := by
    rw [hrest]
    exact List.mem_cons_self
  refine ⟨lines (a ++ returns), line, after, ?_, ?_, fun c hc => ?_⟩
  · rw [← List.append_assoc, lines_append_newline, hrest]
  · rw [length_lines, List.count_append, List.count_eq_zero.mpr hfree, Nat.add_zero]
  · have hmem : c ∈ rest := by
      have happend : rest = line ++ preceded after :=
        eq_terminated_append (hrest.trans (List.nil_append _).symm)
      rw [happend]
      exact List.mem_append_left _ hc
    have hne : c ≠ '\n' := fun heq => newline_not_mem_of_mem_lines hline (heq ▸ hc)
    exact (h c (by simp [hmem])).resolve_left hne

end Text

namespace Span

/-- A line of carriage returns is blank. -/
theorem isBreak_of_returns {separator t line : Text} {before : List Text}
    (h : ∀ c ∈ line, c = '\r') :
    (MaskedLine.ofLine t before line).isBreak separator = true := by
  have hnil : trimReturns line = [] := by
    rw [trimReturns, dropEndWhile_eq_rdropWhile, List.rdropWhile_eq_nil_iff]
    intro c hc
    simp [h c hc]
  rw [MaskedLine.isBreak, MaskedLine.ofLine, hnil, size_nil, Nat.add_zero, slice_self]
  rfl

theorem isSeparatorLine_append_of_isBlank (separator line : Text) {blanks : Text}
    (h : blanks.isBlank = true) :
    Batch.isSeparatorLine separator (line ++ blanks) = Batch.isSeparatorLine separator line := by
  simp only [Batch.isSeparatorLine, trim_append_of_isBlank line h]

/-- The carriage returns at the end of a line do not matter to whether it is a separator line. -/
theorem isSeparatorLine_ofLine {t line : Text} {before after : List Text} (separator : Text)
    (hlines : t.lines = before ++ line :: after) :
    Batch.isSeparatorLine separator (slice (t.mask .identifiers) (size (terminated before))
        (size (terminated before) + size line)) =
      Batch.isSeparatorLine separator (MaskedLine.ofLine t before line).text := by
  have hstands := MaskedLine.standsIn_ofLine hlines
  obtain ⟨returns, htrim, hreturns⟩ := exists_trimReturns line
  have hsize : size line = size (trimReturns line) + size returns := by
    conv_lhs => rw [htrim, size_append]
  have ht : t = terminated before ++ trimReturns line ++ returns ++ preceded after := by
    conv_lhs => rw [eq_terminated_append hlines, htrim]
    simp
  have hend : IsCut t (size (terminated before) + size line) :=
    ⟨terminated before ++ trimReturns line ++ returns, preceded after, ht, by
      rw [size_append, size_append, hsize, Nat.add_assoc]⟩
  have hle : (MaskedLine.ofLine t before line).last ≤ size (terminated before) + size line := by
    simp only [MaskedLine.ofLine]
    omega
  have hslice : slice t (MaskedLine.ofLine t before line).last
      (size (terminated before) + size line) = returns := by
    apply slice_of_eq ht
    · rw [size_append]
      rfl
    · rw [size_append, size_append, hsize, Nat.add_assoc]
  have hblank : (slice t (MaskedLine.ofLine t before line).last
      (size (terminated before) + size line)).isBlank = true := by
    rw [hslice, isBlank, List.all_eq_true]
    intro c hc
    rw [hreturns c hc]
    rfl
  change Batch.isSeparatorLine separator (slice (t.mask .identifiers)
    (MaskedLine.ofLine t before line).first (size (terminated before) + size line)) = _
  rw [slice_eq_append (hstands.isCut_first.mask _) (hstands.isCut_last.mask _)
    hstands.first_le_last hle, ← hstands.text_eq,
    isSeparatorLine_append_of_isBlank _ _
      (isBlank_slice_mask _ hstands.isCut_last hend hle hblank)]

/-- A separator line ends statements. -/
theorem isBreak_of_isSeparatorLine {separator t line masked : Text} {i : Nat}
    (h : (t.lines.zip (t.mask .identifiers).lines)[i]? = some (line, masked))
    (hsep : Batch.isSeparatorLine separator masked = true) {l : MaskedLine}
    (hl : (maskedLines t)[i]? = some l) : l.isBreak separator = true := by
  obtain ⟨-, hmasked⟩ := List.getElem?_zip_eq_some.mp h
  obtain ⟨before, own, after, hlines, rfl, rfl⟩ := exists_line_of_getElem? hl
  obtain ⟨before', after', hlength, hmask⟩ := exists_lines_mask .identifiers hlines
  rw [hmask, ← hlength, List.getElem?_append_right (Nat.le_refl _), Nat.sub_self] at hmasked
  obtain rfl := Option.some.inj hmasked
  rw [isSeparatorLine_ofLine separator hlines] at hsep
  rw [MaskedLine.isBreak, hsep, Bool.or_true]

end Span

namespace Batch

/-- The stretch `s'` of the lines that follow a stretch `s` which has not ended: it goes on from `s`
or begins behind a separator line, and another one ends it, unless the lines end. -/
structure Stretch.Follows (separator : Text) (s : Stretch) (lines : List (Text × Text))
    (s' : Stretch) : Prop where
  above : s'.before = s.before ∨ ∃ i line masked, lines[i]? = some (line, masked) ∧
    isSeparatorLine separator masked = true ∧
    s'.before.length = s.before.length + s.own.length + i + 1
  below : s'.before.length + s'.own.length = s.before.length + s.own.length + lines.length ∨
    ∃ i line masked, lines[i]? = some (line, masked) ∧ isSeparatorLine separator masked = true ∧
      s'.before.length + s'.own.length = s.before.length + s.own.length + i

theorem follows_of_mem_stretchesFrom {separator : Text} {s s' : Stretch}
    {rest : List (Text × Text)} (h : s' ∈ stretchesFrom separator s rest) :
    s.Follows separator rest s' := by
  induction rest generalizing s with
  | nil =>
      obtain rfl := List.mem_singleton.mp h
      exact ⟨Or.inl rfl, Or.inl rfl⟩
  | cons x rest ih =>
      obtain ⟨line, masked⟩ := x
      have hnext {s₁ : Stretch} (hlength : s₁.before.length + s₁.own.length =
          s.before.length + s.own.length + 1) (hfollows : s₁.Follows separator rest s')
          (habove : s'.before = s₁.before → s'.before = s.before ∨
            isSeparatorLine separator masked = true ∧
              s'.before.length = s.before.length + s.own.length + 1) :
          s.Follows separator ((line, masked) :: rest) s' := by
        constructor
        · rcases hfollows.above with hsame | ⟨i, l, m, hget, hsep, heq⟩
          · rcases habove hsame with hbefore | ⟨hsep, heq⟩
            · exact Or.inl hbefore
            · exact Or.inr ⟨0, line, masked, rfl, hsep, heq⟩
          · exact Or.inr ⟨i + 1, l, m, hget, hsep, by omega⟩
        · rcases hfollows.below with heq | ⟨i, l, m, hget, hsep, heq⟩
          · exact Or.inl (by rw [List.length_cons]; omega)
          · exact Or.inr ⟨i + 1, l, m, hget, hsep, by omega⟩
      rw [stretchesFrom] at h
      by_cases hsep : isSeparatorLine separator masked = true
      · rw [if_pos hsep] at h
        rcases List.mem_cons.mp h with rfl | hrest
        · exact ⟨Or.inl rfl, Or.inr ⟨0, line, masked, rfl, hsep, rfl⟩⟩
        · apply hnext (by simp [Nat.add_assoc]) (ih hrest)
          intro hsame
          exact Or.inr ⟨hsep, by rw [hsame]; simp [Nat.add_assoc]⟩
      · rw [if_neg hsep] at h
        exact hnext (by simp [Nat.add_assoc]) (ih h) Or.inl

section Bounds

variable {separator t : Text} {b : Batch} {l : Span.MaskedLine}

/-- The line above a batch, which starts on the line behind it, is a separator line. -/
theorem isBreak_above (hb : b ∈ split separator t) {i : Nat} (hi : b.startLine = i + 2)
    (hl : (Span.maskedLines t)[i]? = some l) : l.isBreak separator = true := by
  obtain ⟨s, hs, -, -, rfl⟩ := exists_of_mem_split hb
  dsimp only at hi
  rcases (follows_of_mem_stretchesFrom hs).above with hnil | ⟨j, line, masked, hget, hsep, hlength⟩
  · rw [hnil, List.length_nil] at hi
    omega
  · obtain rfl : j = i := by
      simp only [List.length_nil] at hlength
      omega
    exact Span.isBreak_of_isSeparatorLine hget hsep hl

/-- The line below a batch is a separator line or blank. -/
theorem isBreak_below (hb : b ∈ split separator t)
    (hl : (Span.maskedLines t)[b.endLine]? = some l) : l.isBreak separator = true := by
  obtain ⟨s, hs, hown, -, rfl⟩ := exists_of_mem_split hb
  obtain ⟨tail, htext, htail⟩ := s.exists_body_append
  obtain ⟨more, hlines⟩ := exists_lines_of_mem_stretches hs
  have hlinesOf : lines (s.body ++ tail) = s.own := by
    rw [← htext]
    exact lines_intercalate hown
      fun line hline => newline_not_mem_before hs line (List.mem_append_right _ hline)
  obtain ⟨before, line, after, hcut, hlength, rfl⟩ := Span.exists_line_of_getElem? hl
  have hline : (s.before ++ s.own ++ more)[before.length]? = some line := by
    rw [← hlines, hcut, List.getElem?_append_right (Nat.le_refl _), Nat.sub_self]
    rfl
  simp only [endLine] at hlength
  by_cases hmem : '\n' ∈ tail
  · obtain ⟨first, line', rest, hbreaks, hfirst, hreturns⟩ :=
      exists_line_of_lineBreaks (a := s.body) htail hmem
    obtain rfl : line' = line := by
      rw [← hlinesOf, hbreaks, List.append_assoc, List.getElem?_append_right (by omega),
        List.append_assoc, List.getElem?_append_right (by omega)] at hline
      have hindex : before.length - s.before.length - first.length = 0 := by omega
      rw [hindex] at hline
      exact Option.some.inj hline
    exact Span.isBreak_of_returns hreturns
  · have hcount : s.own.length = s.body.count '\n' + 1 := by
      rw [← hlinesOf, length_lines, List.count_append, List.count_eq_zero.mpr hmem, Nat.add_zero]
    have hlt := (List.getElem?_eq_some_iff.mp hline).1
    rcases (follows_of_mem_stretchesFrom hs).below with hend | ⟨j, line', masked, hget, hsep, heq⟩
    · have htotal := congrArg List.length hlines
      rw [← map_fst_zip_mask .identifiers t, List.length_map] at htotal
      rw [← htotal] at hlt
      simp only [List.length_nil] at hend
      omega
    · refine Span.isBreak_of_isSeparatorLine hget hsep ?_
      have hindex : s.before.length + 1 + s.body.count '\n' = j := by
        simp only [List.length_nil] at heq
        omega
      rw [← hindex]
      exact hl

end Bounds

end Batch

end SqlInsight
