/-
What bounds the statement that the line scanner finds. The stretch it cuts out goes from an offset
at or before the cursor to one at or after it; no semicolon lies in the stretch, no line that it
touches is a break, and on no line behind its first one a statement begins outside parentheses.
-/
import SqlInsight.Proofs.Span.FixedPoint
import SqlInsight.Proofs.Text.Search

namespace SqlInsight

open Text

namespace Text

theorem IsCut.min {t : Text} {m n : Nat} (hm : IsCut t m) (hn : IsCut t n) :
    IsCut t (min m n) := by
  rcases Nat.le_total m n with h | h
  · rwa [Nat.min_eq_left h]
  · rwa [Nat.min_eq_right h]

/-- Up to where a character is found between two cuts it does not occur. -/
theorem find?_slice_eq_some {m : Text} {a b n : Nat} {c : Char} (ha : IsCut m a) (hb : IsCut m b)
    (hab : a ≤ b) (h : (slice m a b).find? [c] = some n) :
    IsCut m (a + n) ∧ a + n < b ∧ c ∉ slice m a (a + n) := by
  obtain ⟨before, rest, hslice, hnot, rfl⟩ := exists_of_find? h
  obtain ⟨lead, behind, hm, rfl, hsize⟩ := exists_slice ha hb hab
  rw [hslice] at hm hsize
  have hcut : m = lead ++ before ++ (c :: rest ++ behind) := by
    rw [hm]
    simp
  have hpos := c.utf8Size_pos
  rw [size_append, size_cons] at hsize
  refine ⟨⟨lead ++ before, _, hcut, (size_append _ _).symm⟩, by omega, ?_⟩
  rw [slice_of_eq hcut rfl (size_append _ _).symm]
  exact hnot

theorem not_mem_of_find?_eq_none {t : Text} {c : Char} (h : t.find? [c] = none) : c ∉ t := by
  intro hmem
  have hcontains := contains_singleton_iff.mpr hmem
  rw [contains, h] at hcontains
  contradiction

/-- A character lies between two cuts where it stands at an offset between them. -/
theorem mem_slice_of_eq {m u v : Text} {a b : Nat} {c : Char} (hm : m = u ++ c :: v)
    (ha : IsCut m a) (hb : IsCut m b) (hle : a ≤ size u) (hlt : size u < b) : c ∈ slice m a b := by
  obtain ⟨head, rest, hcut, rfl⟩ := hb
  obtain ⟨more, rfl, hrest⟩ := exists_append_of_size_le (hm.symm.trans hcut) (Nat.le_of_lt hlt)
  cases more with
  | nil => simp at hlt
  | cons d more =>
      obtain ⟨rfl, -⟩ := List.cons.inj hrest
      have hu : IsCut m (size u) := ⟨u, c :: v, hm, rfl⟩
      rw [slice_eq_append ha hu hle (Nat.le_of_lt hlt), slice_of_eq hcut rfl rfl]
      simp

theorem exists_of_mem_slice {m : Text} {a b : Nat} {c : Char} (ha : IsCut m a) (hb : IsCut m b)
    (hab : a ≤ b) (h : c ∈ slice m a b) :
    ∃ u v, m = u ++ c :: v ∧ a ≤ size u ∧ size u < b := by
  obtain ⟨lead, tail, hm, rfl, hsize⟩ := exists_slice ha hb hab
  obtain ⟨u, v, hslice⟩ := List.append_of_mem h
  have hpos := c.utf8Size_pos
  rw [hslice] at hm hsize
  rw [size_append, size_cons] at hsize
  refine ⟨lead ++ u, v ++ tail, by rw [hm]; simp, ?_, ?_⟩
  · rw [size_append]
    exact Nat.le_add_right _ _
  · rw [size_append]
    omega

end Text

namespace Span

/-- The stretch of a buffer in which the line scanner finds the statement around a cursor. -/
structure Isolates (separator t : Text) (cursor first last : Nat) : Prop where
  isCut_first : IsCut t first
  isCut_last : IsCut t last
  first_le : first ≤ cursor
  le_last : cursor ≤ last
  not_mem : ';' ∉ slice (t.mask .identifiers) first last
  unbroken : ∀ l ∈ maskedLines t, first ≤ l.last → l.first ≤ last → l.isBreak separator = false
  not_begins : ∀ l ∈ maskedLines t, first < l.first → l.first ≤ last →
    isOuter (t.mask .identifiers) first l.first = true → l.startsStatement = false

/-- A line that a statement goes on to and that it does not leave before the offset `last`: it is no
break, no other statement begins on it, and no semicolon lies on it up to there. -/
structure GoesOver (separator m : Text) (first last : Nat) (l : MaskedLine) : Prop where
  unbroken : l.isBreak separator = false
  not_begins : isOuter m first l.first = true → l.startsStatement = false
  not_mem : ';' ∉ slice m l.first (min last l.last)

section Forward

variable {t : Text}

/-- A statement goes over all lines that begin before its end. -/
theorem endIn_goesOver (separator : Text) (first last : Nat) {lines : List MaskedLine}
    (hlines : ∀ l ∈ lines, l.StandsIn t)
    (hpairwise : lines.Pairwise fun l l' => l.last < l'.first)
    (hlast : ∀ l ∈ lines, last < l.first) :
    last ≤ endIn separator (t.mask .identifiers) first last lines ∧
      ∀ l ∈ lines, l.first ≤ endIn separator (t.mask .identifiers) first last lines →
        GoesOver separator (t.mask .identifiers) first
          (endIn separator (t.mask .identifiers) first last lines) l := by
  induction lines generalizing last with
  | nil => exact ⟨Nat.le_refl _, by simp⟩
  | cons line rest ih =>
      have hline := hlines line List.mem_cons_self
      have hle := hline.first_le_last
      have hlt := hlast line List.mem_cons_self
      obtain ⟨hbehind, hrest⟩ := List.pairwise_cons.mp hpairwise
      have hstop : ∀ l ∈ line :: rest, l.first ≤ last →
          GoesOver separator (t.mask .identifiers) first last l := by
        intro l hl hreached
        have hapart := hlast l hl
        omega
      rw [endIn]
      by_cases hbreak : line.isBreak separator = true
      · rw [if_pos hbreak]
        exact ⟨Nat.le_refl _, hstop⟩
      · by_cases hbegins : (isOuter (t.mask .identifiers) first line.first &&
            line.startsStatement) = true
        · rw [if_neg hbreak, if_pos hbegins]
          exact ⟨Nat.le_refl _, hstop⟩
        · rw [if_neg hbreak, if_neg hbegins]
          have hover {last : Nat}
              (hfree : ';' ∉ slice (t.mask .identifiers) line.first (min last line.last)) :
              GoesOver separator (t.mask .identifiers) first last line :=
            ⟨by simpa using hbreak, by simpa using hbegins, hfree⟩
          cases hfind : line.text.find? [';'] with
          | none =>
              obtain ⟨hend, hmore⟩ := ih line.last
                (fun l hl => hlines l (List.mem_cons_of_mem line hl)) hrest hbehind
              refine ⟨by dsimp only; omega, fun l hl hreached => ?_⟩
              rcases List.mem_cons.mp hl with rfl | hl
              · apply hover
                rw [Nat.min_eq_right hend, ← hline.text_eq]
                exact not_mem_of_find?_eq_none hfind
              · exact hmore l hl hreached
          | some offset =>
              rw [hline.text_eq] at hfind
              obtain ⟨-, hoffset, hfree⟩ := find?_slice_eq_some (hline.isCut_first.mask _)
                (hline.isCut_last.mask _) hle hfind
              refine ⟨by dsimp only; omega, fun l hl hreached => ?_⟩
              rcases List.mem_cons.mp hl with rfl | hl
              · apply hover
                rwa [Nat.min_eq_left (Nat.le_of_lt hoffset)]
              · have hapart := hbehind l hl
                dsimp only at hreached
                omega

/-- What lies between the cursor and the end of its statement: no semicolon on the line of the
cursor, and lines that the statement goes over. -/
theorem lastFrom_goesOver (separator : Text) (first : Nat) {cursor : Nat} {line : MaskedLine}
    {after : List MaskedLine} (hcursor : IsCut t cursor) (hline : line.StandsIn t)
    (hle : cursor ≤ line.last) (hafter : ∀ l ∈ after, l.StandsIn t)
    (hpairwise : (line :: after).Pairwise fun l l' => l.last < l'.first) :
    cursor ≤ lastFrom separator (t.mask .identifiers) first cursor line after ∧
      ';' ∉ slice (t.mask .identifiers) cursor
        (min (lastFrom separator (t.mask .identifiers) first cursor line after) line.last) ∧
      ∀ l ∈ after,
        l.first ≤ lastFrom separator (t.mask .identifiers) first cursor line after →
          GoesOver separator (t.mask .identifiers) first
            (lastFrom separator (t.mask .identifiers) first cursor line after) l := by
  obtain ⟨hbehind, hrest⟩ := List.pairwise_cons.mp hpairwise
  rw [lastFrom]
  cases hfind : (slice (t.mask .identifiers) cursor line.last).find? [';'] with
  | none =>
      obtain ⟨hend, hover⟩ := endIn_goesOver separator first line.last hafter hrest hbehind
      dsimp only
      rw [Nat.min_eq_right hend]
      exact ⟨by omega, not_mem_of_find?_eq_none hfind, hover⟩
  | some offset =>
      obtain ⟨-, hoffset, hfree⟩ := find?_slice_eq_some (hcursor.mask _)
        (hline.isCut_last.mask _) hle hfind
      dsimp only
      rw [Nat.min_eq_left (Nat.le_of_lt hoffset)]
      refine ⟨Nat.le_add_right _ _, hfree, fun l hl hreached => ?_⟩
      have hapart := hbehind l hl
      omega

end Forward

section Found

variable {separator t : Text} {cursor : Nat} {before after : List MaskedLine} {line : MaskedLine}
  {x : Extent}

/-- On the lines of the walk back behind the start of a statement no other one begins. -/
theorem StartsAt.not_begins {lines : List MaskedLine} {first k : Nat}
    (h : StartsAt separator t lines cursor first k) {l : MaskedLine} (hl : l ∈ lines)
    (hlt : first < l.first) :
    isOuter (t.mask .identifiers) first l.first = true → l.startsStatement = false := by
  obtain ⟨own, post, rfl⟩ := List.append_of_mem hl
  have hpost : ∀ l' ∈ l :: post, first < l'.first := by
    intro l' hl'
    rcases List.mem_cons.mp hl' with rfl | hbehind
    · exact hlt
    · have hpairwise := (List.pairwise_append.mp h.passage.pairwise).2.1
      have hapart := (List.pairwise_cons.mp hpairwise).1 l' hbehind
      have hle := (h.passage.standsIn l hl).first_le_last
      omega
  have hnot := not_begins_of_startIn_eq (h.startIn_append_eq hpost).2 hpost l List.mem_cons_self
  simpa using hnot

/-- A character of the mask that is no blank lies on a line. -/
theorem exists_maskedLine_of_mask {c : Char} (hc : CharClass.isBlank c = false) {a b : Text}
    (hmask : t.mask .identifiers = a ++ c :: b) :
    ∃ l ∈ maskedLines t, l.first ≤ size a ∧ size a < l.last := by
  rw [mask_eq_maskOf] at hmask
  obtain ⟨before, after, ht, hsize⟩ := exists_append_of_maskOf hc hmask
  rw [map_fst_regions] at ht
  obtain ⟨i, l, hl, hfirst, hlast, -⟩ := exists_maskedLine_of_not_isBlank ht hc
  rw [← hsize]
  exact ⟨l, List.mem_of_getElem? hl, hfirst, hlast⟩

section Stretch

variable {first k last : Nat}

/-- The lines that a stretch touches are those of the walk back and those behind the cursor. -/
theorem Scans.touched (h : Scans separator t cursor before line after x)
    (hstarts : StartsAt separator t (walkedBack separator before ++ [line]) cursor first k)
    {l : MaskedLine} (hl : l ∈ maskedLines t) (hle : first ≤ l.last) :
    l ∈ walkedBack separator before ++ [line] ∨ l ∈ after := by
  have hpairwise := maskedLines_pairwise t
  rw [h.lines_cut, List.append_assoc] at hpairwise hl
  obtain ⟨-, -, hdropped⟩ := List.pairwise_append.mp hpairwise
  rcases List.mem_append.mp hl with hbefore | hl
  · obtain ⟨head, hhead, hbehind⟩ := hstarts.behind
    have hmem := List.mem_of_head? hhead
    have hapart := hdropped l hbefore head (List.mem_append_left after hmem)
    have hbehindle := hbehind.first_le
    have hsemicolon := hstarts.semicolon_le
    omega
  · exact List.mem_append.mp hl

/-- No semicolon lies in a stretch from the start of the walk back to an end that the statement goes
on to. In front of the cursor this is the start's doing, and behind it that of the end. -/
theorem Scans.not_mem (h : Scans separator t cursor before line after x)
    (hstarts : StartsAt separator t (walkedBack separator before ++ [line]) cursor first k)
    (hlast : IsCut t last) (hend : cursor ≤ last)
    (hfree : ';' ∉ slice (t.mask .identifiers) cursor (min last line.last))
    (hover : ∀ l ∈ after, l.first ≤ last →
      GoesOver separator (t.mask .identifiers) first last l) :
    ';' ∉ slice (t.mask .identifiers) first last := by
  intro hmem
  have hfirst := hstarts.le_cursor
  obtain ⟨u, v, hmask, hle, hlt⟩ := exists_of_mem_slice (hstarts.isCut.mask _) (hlast.mask _)
    (by omega) hmem
  by_cases hbefore : size u < cursor
  · obtain ⟨head, -, hbehind⟩ := hstarts.behind
    have hsemicolon := hstarts.semicolon_le
    exact hbehind.not_mem (mem_slice_of_eq hmask hbehind.isCut (h.isCut.mask _) (by omega)
      hbefore)
  · obtain ⟨l, hl, hlfirst, hllast⟩ := exists_maskedLine_of_mask (by decide) hmask
    have hcut := standsIn_of_mem_maskedLines hl
    rcases h.touched hstarts hl (by omega) with hown | hbelow
    · rcases List.mem_append.mp hown with habove | hsame
      · have hapart := (List.pairwise_append.mp h.passage.pairwise).2.2 l habove line (by simp)
        have hlinele := h.first_le
        omega
      · rw [List.mem_singleton.mp hsame] at hllast
        have hline : line.StandsIn t := h.standsIn (by simp)
        exact hfree (mem_slice_of_eq hmask (h.isCut.mask _)
          ((hlast.min hline.isCut_last).mask _) (by omega) (by omega))
    · exact (hover l hbelow (by omega)).not_mem (mem_slice_of_eq hmask (hcut.isCut_first.mask _)
        ((hlast.min hcut.isCut_last).mask _) hlfirst (by omega))

end Stretch

/-- The stretch in which the scanner finds a statement. -/
theorem Scans.exists_isolates (h : Scans separator t cursor before line after x) :
    ∃ first last, Isolates separator t cursor first last ∧ trimmed? t first last = some x := by
  obtain ⟨first, k, hstarts, hfound, -⟩ := h.exists_startsAt
  have hline : line.StandsIn t := h.standsIn (by simp)
  have hafter : ∀ l ∈ after, l.StandsIn t := fun l hl => h.standsIn (by simp [hl])
  have hpairwise := maskedLines_pairwise t
  rw [h.lines_eq] at hpairwise
  obtain ⟨hend, hfree, hover⟩ := lastFrom_goesOver separator first h.isCut hline h.le_last hafter
    (List.pairwise_append.mp hpairwise).2.1
  have hlast : IsCut t (lastFrom separator (t.mask .identifiers) first cursor line after) :=
    isCut_lastFrom h.isCut hline h.le_last hafter
  have hnot := h.not_mem hstarts hlast hend hfree hover
  refine ⟨first, _, ⟨hstarts.isCut, hlast, hstarts.le_cursor, hend, hnot, ?_, ?_⟩, hfound⟩
  · intro l hl hle hreached
    rcases h.touched hstarts hl hle with hown | hbelow
    · exact h.passage.unbroken l hown
    · exact (hover l hbelow hreached).unbroken
  · intro l hl hlt hreached
    have hle := (standsIn_of_mem_maskedLines hl).first_le_last
    rcases h.touched hstarts hl (by omega) with hown | hbelow
    · exact hstarts.not_begins hown hlt
    · exact (hover l hbelow hreached).not_begins

end Found

end Span

end SqlInsight
