/-
The line scanner started again where the statement it found begins. Mostly that is on one of the
lines that were walked back; then the lines, the semicolon and the line that begins the statement
are the same, and no line in between can end it. But a statement that starts behind the semicolon
at the end of the line of the cursor has its first character on the line below: there the semicolon
stops the walk back, and nothing but blanks is left out.
-/
import SqlInsight.Proofs.Span.Scanner

namespace SqlInsight

open Text

/-- What is taken at the end, with some more behind it. -/
theorem rtakeWhile_rdropWhile_append {α : Type} (p : α → Bool) (xs : List α) {ys : List α}
    (h : ∀ y ∈ ys, p y = true) : (xs.rdropWhile p ++ ys).rtakeWhile p = ys := by
  have hnone : (xs.rdropWhile p).reverse.takeWhile p = [] := by
    rw [← List.reverse_eq_nil_iff, ← List.rtakeWhile, List.rtakeWhile_eq_nil_iff]
    exact List.rdropWhile_last_not p xs
  rw [List.rtakeWhile, List.reverse_append, List.takeWhile_append_of_pos, hnone,
    List.append_nil, List.reverse_reverse]
  intro y hy
  exact h y (List.mem_reverse.mp hy)

/-- A last element stands alone behind what comes before it, or ends what comes behind another. -/
theorem concat_eq_append_cons {α : Type} {xs pre post : List α} {x y : α}
    (h : xs ++ [y] = pre ++ x :: post) :
    (post = [] ∧ xs = pre ∧ y = x) ∨
      ∃ through, post = through ++ [y] ∧ xs = pre ++ x :: through := by
  rcases List.eq_nil_or_concat post with rfl | ⟨through, z, rfl⟩
  · obtain ⟨hxs, hy⟩ := List.append_inj' h rfl
    exact Or.inl ⟨rfl, hxs, (List.cons.inj hy).1⟩
  · have hsplit : xs ++ [y] = (pre ++ x :: through) ++ [z] := by
      rw [h]
      simp
    obtain ⟨hxs, hy⟩ := List.append_inj' hsplit rfl
    refine Or.inr ⟨through, ?_, hxs⟩
    rw [(List.cons.inj hy).1, List.concat_eq_append]

namespace Text

/-- What is between two cuts has in it what is between two others that lie between them. -/
theorem slice_isInfix_of_le {m : Text} {a b k n : Nat} (ha : IsCut m a) (hb : IsCut m b)
    (hk : IsCut m k) (hab : a ≤ b) (hbk : b ≤ k) (hkn : k ≤ n) : slice m b k <:+: slice m a n := by
  refine ⟨slice m a b, slice m k n, ?_⟩
  rw [slice_eq_append ha hb hab (Nat.le_trans hbk hkn), slice_eq_append hb hk hbk hkn,
    List.append_assoc]

theorem not_mem_slice_of_le {m : Text} {a b k n : Nat} {c : Char} (h : c ∉ slice m a n)
    (ha : IsCut m a) (hb : IsCut m b) (hk : IsCut m k) (hab : a ≤ b) (hbk : b ≤ k) (hkn : k ≤ n) :
    c ∉ slice m b k :=
  fun hc => h ((slice_isInfix_of_le ha hb hk hab hbk hkn).subset hc)

theorem isBlank_slice_of_le {m : Text} {a b k n : Nat} (h : (slice m a n).isBlank = true)
    (ha : IsCut m a) (hb : IsCut m b) (hk : IsCut m k) (hab : a ≤ b) (hbk : b ≤ k) (hkn : k ≤ n) :
    (slice m b k).isBlank = true := by
  rw [isBlank, List.all_eq_true] at h ⊢
  exact fun c hc => h c ((slice_isInfix_of_le ha hb hk hab hbk hkn).subset hc)

end Text

namespace Span

/-- Lines of a buffer that one statement may go over. -/
structure Passage (separator t : Text) (lines : List MaskedLine) : Prop where
  standsIn : ∀ l ∈ lines, l.StandsIn t
  pairwise : lines.Pairwise fun l l' => l.last < l'.first
  unbroken : ∀ l ∈ lines, l.isBreak separator = false

/-- Where the statement that goes on to `cursor` in these lines starts. -/
def firstIn (m : Text) (cursor : Nat) : List MaskedLine → Nat
  | [] => cursor
  | line :: rest => startIn m (afterSemicolon m line.first cursor) rest

/-- Whether the statement on the next line may have begun on this one. -/
def MaskedLine.leadsOn (separator : Text) (line : MaskedLine) : Bool :=
  !line.isBreak separator && !line.isTerminated

/-- The lines before one that a walk back from it goes over. -/
def walkedBack (separator : Text) (before : List MaskedLine) : List MaskedLine :=
  before.rtakeWhile (MaskedLine.leadsOn separator)

theorem rdropWhile_append_walkedBack (separator : Text) (before : List MaskedLine) :
    before.rdropWhile (MaskedLine.leadsOn separator) ++ walkedBack separator before = before :=
  List.rdropWhile_append_rtakeWhile

theorem extentAround?_eq {separator t : Text} {cursor : Nat} {before after : List MaskedLine}
    {line : MaskedLine} (hbreak : line.isBreak separator = false) :
    extentAround? separator t cursor before.reverse line after =
      trimmed? t (firstIn (t.mask .identifiers) cursor (walkedBack separator before ++ [line]))
        (lastFrom separator (t.mask .identifiers)
          (firstIn (t.mask .identifiers) cursor (walkedBack separator before ++ [line])) cursor
          line after) := by
  have hfirst : startIn (t.mask .identifiers) (afterSemicolon (t.mask .identifiers)
      ((walkedBack separator before ++ [line]).head?.getD line).first cursor)
        (walkedBack separator before ++ [line]).tail =
      firstIn (t.mask .identifiers) cursor (walkedBack separator before ++ [line]) := by
    cases walkedBack separator before <;> rfl
  rw [trimmed?_eq, ← hfirst, extentAround?, hbreak]
  rfl

section Restart

variable {separator t : Text} {cursor cursor' first : Nat}

theorem BehindSemicolon.isCut_text {k last : Nat}
    (h : BehindSemicolon (t.mask .identifiers) first last k) (hfirst : IsCut t first) :
    IsCut t k := by
  rcases h.start with rfl | ⟨w, hw⟩
  · exact hfirst
  · obtain ⟨a, c, hmask, rfl, hsize⟩ :=
      exists_slice (hfirst.mask .identifiers) h.isCut h.first_le
    rw [hw] at hmask hsize
    have hcut : t.mask .identifiers = (a ++ w) ++ ';' :: c := by
      rw [hmask]
      simp
    rw [hsize, ← size_append, ← List.append_assoc]
    exact (isCut_of_mask (by decide) hcut).2

/-- The start of a statement that goes on to `cursor` in some lines: it lies at the last semicolon
before `cursor`, or on a line further down that begins a statement. -/
structure StartsAt (separator t : Text) (lines : List MaskedLine) (cursor first k : Nat) :
    Prop where
  passage : Passage separator t lines
  isCut_cursor : IsCut t cursor
  behind : ∃ head, lines.head? = some head ∧
    BehindSemicolon (t.mask .identifiers) head.first cursor k
  startIn_eq : startIn (t.mask .identifiers) k lines = first
  isCut : IsCut t first
  semicolon_le : k ≤ first
  le_cursor : first ≤ cursor

theorem StartsAt.isCut_semicolon {lines : List MaskedLine} {k : Nat}
    (h : StartsAt separator t lines cursor first k) : IsCut (t.mask .identifiers) k := by
  obtain ⟨head, -, hbehind⟩ := h.behind
  exact hbehind.isCut

theorem startIn_head {m : Text} {k : Nat} {head : MaskedLine} (hle : head.first ≤ k)
    (rest : List MaskedLine) : startIn m k (head :: rest) = startIn m k rest := by
  rw [startIn, decide_eq_false (by omega)]
  rfl

theorem StartsAt.firstIn_eq {lines : List MaskedLine} {k : Nat}
    (h : StartsAt separator t lines cursor first k) :
    firstIn (t.mask .identifiers) cursor lines = first := by
  obtain ⟨head, hhead, hbehind⟩ := h.behind
  obtain ⟨rest, rfl⟩ := List.head?_eq_some_iff.mp hhead
  have hcut := (h.passage.standsIn head List.mem_cons_self).isCut_first
  have hstart := h.startIn_eq
  rw [startIn_head hbehind.first_le] at hstart
  rw [firstIn, hbehind.afterSemicolon_eq (hcut.mask _) (h.isCut_cursor.mask _), hstart]

theorem exists_startsAt {lines : List MaskedLine} (hne : lines ≠ [])
    (hlines : Passage separator t lines) (hcursor : IsCut t cursor)
    (hle : ∀ l ∈ lines, l.first ≤ cursor) :
    ∃ k, StartsAt separator t lines cursor (firstIn (t.mask .identifiers) cursor lines) k := by
  obtain ⟨head, rest, rfl⟩ := List.exists_cons_of_ne_nil hne
  have hhead := (hlines.standsIn head List.mem_cons_self).isCut_first
  have hbehind := behindSemicolon_afterSemicolon (hhead.mask .identifiers)
    (hcursor.mask .identifiers) (hle head List.mem_cons_self)
  refine ⟨_, hlines, hcursor, ⟨head, rfl, hbehind⟩, startIn_head hbehind.first_le rest, ?_,
    le_startIn _ _ _, ?_⟩
  · rcases startIn_cases (t.mask .identifiers) _ rest with hsame | ⟨l, hl, heq, -⟩
    · rw [firstIn, hsame]
      exact hbehind.isCut_text hhead
    · rw [firstIn, heq]
      exact (hlines.standsIn l (List.mem_cons_of_mem head hl)).isCut_first
  · rcases startIn_cases (t.mask .identifiers) _ rest with hsame | ⟨l, hl, heq, -⟩
    · rw [firstIn, hsame]
      exact hbehind.le_last
    · rw [firstIn, heq]
      exact hle l (List.mem_cons_of_mem head hl)

/-- An offset from which a walk back finds the same start: only blanks lie before it. -/
structure Resumes (t : Text) (first cursor' : Nat) : Prop where
  isCut : IsCut t cursor'
  first_le : first ≤ cursor'
  isBlank : (slice (t.mask .identifiers) first cursor').isBlank = true

/-- There is no semicolon from the last one before a statement up to the cursor, nor up to the
first character. -/
theorem StartsAt.not_mem {lines : List MaskedLine} {k i n : Nat}
    (h : StartsAt separator t lines cursor first k) (hresumes : Resumes t first cursor')
    (hi : IsCut (t.mask .identifiers) i) (hn : IsCut (t.mask .identifiers) n) (hki : k ≤ i)
    (hin : i ≤ n) (hbound : n ≤ cursor ∨ n ≤ cursor') :
    ';' ∉ slice (t.mask .identifiers) i n := by
  have hcursor := h.isCut_cursor.mask .identifiers
  have hk := h.isCut_semicolon
  obtain ⟨head, -, hbehind⟩ := h.behind
  suffices hfree : ';' ∉ slice (t.mask .identifiers) k n from
    not_mem_slice_of_le hfree hk hi hn hki hin (Nat.le_refl n)
  by_cases hnc : n ≤ cursor
  · exact not_mem_slice_of_le hbehind.not_mem hk hk hn (Nat.le_refl k) (Nat.le_trans hki hin) hnc
  · have hfirst := h.le_cursor
    have hkfirst := h.semicolon_le
    have htail : (slice (t.mask .identifiers) cursor n).isBlank = true :=
      isBlank_slice_of_le hresumes.isBlank (h.isCut.mask _) hcursor hn hfirst (by omega)
        (by omega)
    rw [slice_eq_append hk hcursor (by omega) (by omega)]
    simp only [List.mem_append, not_or]
    exact ⟨hbehind.not_mem, not_mem_of_isBlank (by decide) htail⟩

/-- The lines behind the one on which a statement starts do not move its start. -/
theorem StartsAt.startIn_append_eq {own post : List MaskedLine} {k : Nat}
    (h : StartsAt separator t (own ++ post) cursor first k) (hpost : ∀ l ∈ post, first < l.first) :
    startIn (t.mask .identifiers) k own = first ∧
      startIn (t.mask .identifiers) first post = first := by
  have hsplit := h.startIn_eq
  rw [startIn_append] at hsplit
  have hown : startIn (t.mask .identifiers) k own = first := by
    rcases startIn_cases (t.mask .identifiers) (startIn (t.mask .identifiers) k own) post with
      hsame | ⟨l, hl, heq, -⟩
    · rw [← hsplit, hsame]
    · have hlt := hpost l hl
      omega
  rw [hown] at hsplit
  exact ⟨hown, hsplit⟩

/-- Walked back from its first character, a statement starts where it did. -/
theorem StartsAt.restart {own post : List MaskedLine} {k : Nat}
    (h : StartsAt separator t (own ++ post) cursor first k) (hown : own ≠ [])
    (hresumes : Resumes t first cursor') (hpost : ∀ l ∈ post, first < l.first) :
    StartsAt separator t own cursor' first k := by
  have hk := h.semicolon_le
  have hle := hresumes.first_le
  have hpassage : Passage separator t own :=
    ⟨fun l hl => h.passage.standsIn l (List.mem_append_left post hl),
      (List.pairwise_append.mp h.passage.pairwise).1,
      fun l hl => h.passage.unbroken l (List.mem_append_left post hl)⟩
  have hfree := h.not_mem hresumes h.isCut_semicolon (hresumes.isCut.mask _) (Nat.le_refl k)
    (by omega) (Or.inr (Nat.le_refl _))
  obtain ⟨head, hhead, hbehind⟩ := h.behind
  rw [List.head?_append_of_ne_nil own hown] at hhead
  exact ⟨hpassage, hresumes.isCut,
    ⟨head, hhead, hbehind.isCut, hbehind.first_le, by omega, hfree, hbehind.start⟩,
    (h.startIn_append_eq hpost).1, h.isCut, hk, hle⟩

/-- Looked for from its first character, a statement ends where it did: none of the lines up to the
one of the cursor begins another one, and no semicolon lies on them. -/
theorem StartsAt.lastFrom_eq {pre through after : List MaskedLine} {own line : MaskedLine} {k : Nat}
    (h : StartsAt separator t (pre ++ own :: (through ++ [line])) cursor first k)
    (hresumes : Resumes t first cursor') (hown : cursor' < own.last)
    (hfirst : line.first ≤ cursor) (hlast : cursor ≤ line.last) :
    lastFrom separator (t.mask .identifiers) first cursor' own (through ++ line :: after) =
      lastFrom separator (t.mask .identifiers) first cursor line after := by
  have hkfirst := h.semicolon_le
  have hle := hresumes.first_le
  have hmem {l : MaskedLine} (hl : l ∈ through ++ [line]) :
      l ∈ pre ++ own :: (through ++ [line]) :=
    List.mem_append_right pre (List.mem_cons_of_mem own hl)
  have hline : line ∈ pre ++ own :: (through ++ [line]) := hmem (by simp)
  have hpairwise := (List.pairwise_append.mp h.passage.pairwise).2.1
  have hpost : ∀ l ∈ through ++ [line], own.last < l.first :=
    (List.pairwise_cons.mp hpairwise).1
  have hthrough : ∀ l ∈ through, l.last < line.first := fun l hl =>
    (List.pairwise_append.mp (List.pairwise_cons.mp hpairwise).2).2.2 l hl line (by simp)
  have hownline := hpost line (by simp)
  have hcut {l : MaskedLine} (hl : l ∈ pre ++ own :: (through ++ [line])) :=
    h.passage.standsIn l hl
  have hsplit : pre ++ own :: (through ++ [line]) = (pre ++ [own]) ++ (through ++ [line]) := by
    simp
  have hstart : startIn (t.mask .identifiers) first (through ++ [line]) = first := by
    rw [hsplit] at h
    refine (h.startIn_append_eq fun l hl => ?_).2
    have hlt := hpost l hl
    omega
  have hownfree : ';' ∉ slice (t.mask .identifiers) cursor' own.last :=
    h.not_mem hresumes (hresumes.isCut.mask _) ((hcut (by simp)).isCut_last.mask _) (by omega)
      (by omega) (Or.inl (by omega))
  have hlinefree : ';' ∉ slice (t.mask .identifiers) line.first cursor :=
    h.not_mem hresumes ((hcut hline).isCut_first.mask _) (h.isCut_cursor.mask _) (by omega) hfirst
      (Or.inl (Nat.le_refl _))
  have hthroughfree : ∀ l ∈ through, ';' ∉ slice (t.mask .identifiers) l.first l.last := by
    intro l hl
    have hstands := hcut (hmem (List.mem_append_left [line] hl))
    have hbefore := hthrough l hl
    have hbehind := hpost l (List.mem_append_left [line] hl)
    exact h.not_mem hresumes (hstands.isCut_first.mask _) (hstands.isCut_last.mask _) (by omega)
      hstands.first_le_last (Or.inl (by omega))
  calc
    lastFrom separator (t.mask .identifiers) first cursor' own (through ++ line :: after)
      = endIn separator (t.mask .identifiers) first own.last (through ++ line :: after) :=
        lastFrom_of_not_mem hownfree _
    _ = lastFrom separator (t.mask .identifiers) first line.first line after := by
        apply endIn_through
        · exact fun l hl => h.passage.unbroken l (hmem hl)
        · apply not_begins_of_startIn_eq hstart
          intro l hl
          have hlt := hpost l hl
          omega
        · exact fun l hl => (hcut (hmem hl)).text_eq
        · exact hthroughfree
    _ = lastFrom separator (t.mask .identifiers) first cursor line after :=
        lastFrom_congr ((hcut hline).isCut_first.mask _) (h.isCut_cursor.mask _) hfirst hlast
          hlinefree after

/-- On the line of the cursor itself the end is the same from the first character on. -/
theorem StartsAt.lastFrom_eq_same {pre after : List MaskedLine} {line : MaskedLine} {k : Nat}
    (h : StartsAt separator t (pre ++ [line]) cursor first k) (hresumes : Resumes t first cursor')
    (hlast' : cursor' ≤ line.last) (hlast : cursor ≤ line.last) :
    lastFrom separator (t.mask .identifiers) first cursor' line after =
      lastFrom separator (t.mask .identifiers) first cursor line after := by
  have hkfirst := h.semicolon_le
  have hcursor := h.isCut_cursor.mask .identifiers
  have hcursor' := hresumes.isCut.mask .identifiers
  rcases Nat.le_total cursor' cursor with hle | hle
  · refine lastFrom_congr hcursor' hcursor hle hlast ?_ after
    have hfirst := hresumes.first_le
    exact h.not_mem hresumes hcursor' hcursor (by omega) hle (Or.inl (Nat.le_refl _))
  · refine (lastFrom_congr hcursor hcursor' hle hlast' ?_ after).symm
    have hfirst := h.le_cursor
    exact h.not_mem hresumes hcursor hcursor' (by omega) hle (Or.inr (Nat.le_refl _))

end Restart

theorem maskedLines_pairwise (t : Text) :
    (maskedLines t).Pairwise fun l l' => l.last < l'.first := by
  rw [List.pairwise_iff_getElem]
  intro i j hi hj hlt
  exact last_lt_first (List.getElem?_eq_getElem hi) (List.getElem?_eq_getElem hj) hlt

/-- The line scanner, started at an offset on a line of a buffer, finds a statement. -/
structure Scans (separator t : Text) (cursor : Nat) (before : List MaskedLine) (line : MaskedLine)
    (after : List MaskedLine) (x : Extent) : Prop where
  lines_eq : maskedLines t = before ++ line :: after
  isCut : IsCut t cursor
  first_le : line.first ≤ cursor
  le_last : cursor ≤ line.last
  found : extentAround? separator t cursor before.reverse line after = some x

/-- The lines that have these many lines before them lie among lines without a break. -/
def Together (separator t : Text) (i j : Nat) : Prop :=
  ∃ a passage c, maskedLines t = a ++ passage ++ c ∧
    (∀ l ∈ passage, l.isBreak separator = false) ∧
    (a.length ≤ i ∧ i < a.length + passage.length) ∧
    a.length ≤ j ∧ j < a.length + passage.length

section Found

variable {separator t : Text} {cursor : Nat} {before after : List MaskedLine} {line : MaskedLine}
  {x : Extent}

theorem Scans.unbroken (h : Scans separator t cursor before line after x) :
    line.isBreak separator = false := by
  by_contra hbreak
  have hfound := h.found
  rw [extentAround?, if_pos (by simpa using hbreak)] at hfound
  contradiction

theorem lines_walkedBack (separator : Text) (hlines : maskedLines t = before ++ line :: after) :
    maskedLines t = before.rdropWhile (MaskedLine.leadsOn separator) ++
      (walkedBack separator before ++ [line]) ++ after := by
  conv_lhs => rw [hlines, ← rdropWhile_append_walkedBack separator before]
  simp

theorem Scans.lines_cut (h : Scans separator t cursor before line after x) :
    maskedLines t = before.rdropWhile (MaskedLine.leadsOn separator) ++
      (walkedBack separator before ++ [line]) ++ after :=
  lines_walkedBack separator h.lines_eq

theorem Scans.standsIn (h : Scans separator t cursor before line after x) {l : MaskedLine}
    (hl : l ∈ before ++ line :: after) : l.StandsIn t := by
  rw [← h.lines_eq] at hl
  exact standsIn_of_mem_maskedLines hl

theorem passage_walkedBack (hlines : maskedLines t = before ++ line :: after)
    (hunbroken : line.isBreak separator = false) :
    Passage separator t (walkedBack separator before ++ [line]) := by
  have hcut := lines_walkedBack separator hlines
  have hpairwise := maskedLines_pairwise t
  rw [hcut] at hpairwise
  refine ⟨fun l hl => ?_, ?_, fun l hl => ?_⟩
  · apply standsIn_of_mem_maskedLines
    rw [hcut]
    exact List.mem_append_left _ (List.mem_append_right _ hl)
  · exact (List.pairwise_append.mp (List.pairwise_append.mp hpairwise).1).2.1
  · rcases List.mem_append.mp hl with hwalked | hline
    · have hkept := List.mem_rtakeWhile_imp hwalked
      simp only [MaskedLine.leadsOn, Bool.and_eq_true, Bool.not_eq_true'] at hkept
      exact hkept.1
    · rw [List.mem_singleton.mp hline]
      exact hunbroken

theorem Scans.passage (h : Scans separator t cursor before line after x) :
    Passage separator t (walkedBack separator before ++ [line]) :=
  passage_walkedBack h.lines_eq h.unbroken

/-- A walk back from a line that is no break comes to a start. -/
theorem exists_startsAt_walkedBack (hlines : maskedLines t = before ++ line :: after)
    (hunbroken : line.isBreak separator = false) (hcursor : IsCut t cursor)
    (hfirst : line.first ≤ cursor) :
    ∃ k, StartsAt separator t (walkedBack separator before ++ [line]) cursor
      (firstIn (t.mask .identifiers) cursor (walkedBack separator before ++ [line])) k := by
  have hpassage := passage_walkedBack hlines hunbroken
  refine exists_startsAt (by simp) hpassage hcursor fun l hl => ?_
  rcases List.mem_append.mp hl with hwalked | hline
  · have hlt := (List.pairwise_append.mp hpassage.pairwise).2.2 l hwalked line (by simp)
    have hlfirst := (hpassage.standsIn l hl).first_le_last
    omega
  · rw [List.mem_singleton.mp hline]
    exact hfirst

/-- What the scanner finds, with the start that its walk back came to. -/
theorem Scans.exists_startsAt (h : Scans separator t cursor before line after x) :
    ∃ first k, StartsAt separator t (walkedBack separator before ++ [line]) cursor first k ∧
      trimmed? t first (lastFrom separator (t.mask .identifiers) first cursor line after) =
        some x ∧
      Trimmed t first (lastFrom separator (t.mask .identifiers) first cursor line after) x := by
  obtain ⟨k, hstarts⟩ := exists_startsAt_walkedBack h.lines_eq h.unbroken h.isCut h.first_le
  have hfound := h.found
  rw [extentAround?_eq h.unbroken] at hfound
  refine ⟨_, k, hstarts, hfound, trimmed_of_trimmed? hstarts.isCut ?_ hfound⟩
  exact isCut_lastFrom h.isCut (h.standsIn (by simp)) h.le_last
    fun l hl => h.standsIn (by simp [hl])

theorem isCut_of_standsIn (h : x.StandsIn t 0) : IsCut t x.first ∧ IsCut t x.last := by
  obtain ⟨a, part, c, ht, hfirst, hlast, -⟩ := h.exists_append
  rw [Nat.zero_add] at hfirst
  refine ⟨⟨a, part ++ c, ?_, hfirst⟩, ⟨a ++ part, c, ht, ?_⟩⟩
  · rw [ht, List.append_assoc]
  · rw [hlast, hfirst, size_append]

theorem Trimmed.resumes {first last : Nat} (h : Trimmed t first last x) (hfirst : IsCut t first) :
    Resumes t first x.first := by
  have hcut := (isCut_of_standsIn h.standsIn).1
  exact ⟨hcut, h.first_le, isBlank_slice_mask .identifiers hfirst hcut h.first_le h.isBlank⟩

/-- A walk back from a line that was walked over goes over the lines before it again. -/
theorem walkedBack_again {pre post : List MaskedLine} {l : MaskedLine}
    (h : walkedBack separator before ++ [line] = pre ++ l :: post) :
    walkedBack separator (before.rdropWhile (MaskedLine.leadsOn separator) ++ pre) = pre := by
  apply rtakeWhile_rdropWhile_append
  intro y hy
  have hwalked : y ∈ walkedBack separator before := by
    rcases concat_eq_append_cons h with ⟨-, hpre, -⟩ | ⟨through, -, hpre⟩
    · rwa [hpre]
    · rw [hpre]
      exact List.mem_append_left _ hy
  exact List.mem_rtakeWhile_imp hwalked

/-- A statement that begins on a line of the walk back is found again from there. -/
theorem Scans.restart_within (h : Scans separator t cursor before line after x)
    {l : MaskedLine} (hl : l ∈ walkedBack separator before ++ [line]) (hfirst : l.first ≤ x.first)
    (hlast : x.first < l.last) :
    ∃ before' after', Scans separator t x.first before' l after' x ∧
      Together separator t before'.length before.length := by
  obtain ⟨pre, post, hown⟩ := List.append_of_mem hl
  obtain ⟨first, k, hstarts, hfound, htrimmed⟩ := h.exists_startsAt
  have hresumes := htrimmed.resumes hstarts.isCut
  have hcut := h.lines_cut
  have hlength := congrArg List.length (rdropWhile_append_walkedBack separator before)
  have hownlength := congrArg List.length hown
  simp only [List.length_append, List.length_cons, List.length_nil] at hlength hownlength
  have hrestart : StartsAt separator t (pre ++ [l]) x.first first k := by
    have hsplit : walkedBack separator before ++ [line] = (pre ++ [l]) ++ post := by
      rw [hown]
      simp
    rw [hsplit] at hstarts
    refine hstarts.restart (by simp) hresumes fun l' hl' => ?_
    have hlt := (List.pairwise_append.mp hstarts.passage.pairwise).2.2 l (by simp) l' hl'
    have hle := htrimmed.first_le
    omega
  have hend : lastFrom separator (t.mask .identifiers) first x.first l (post ++ after) =
      lastFrom separator (t.mask .identifiers) first cursor line after := by
    rw [hown] at hstarts
    rcases concat_eq_append_cons hown with ⟨rfl, -, rfl⟩ | ⟨through, rfl, -⟩
    · exact hstarts.lastFrom_eq_same hresumes (Nat.le_of_lt hlast) h.le_last
    · rw [List.append_assoc, List.singleton_append]
      exact hstarts.lastFrom_eq hresumes hlast h.first_le h.le_last
  refine ⟨before.rdropWhile (MaskedLine.leadsOn separator) ++ pre, post ++ after,
    ⟨?_, hresumes.isCut, hfirst, Nat.le_of_lt hlast, ?_⟩, _, _, after, hcut, h.passage.unbroken,
    ⟨?_, ?_⟩, ?_, ?_⟩
  · rw [hcut, hown]
    simp
  · rw [extentAround?_eq (h.passage.unbroken l hl), walkedBack_again hown, hrestart.firstIn_eq,
      hend]
    exact hfound
  · simp
  · simp only [List.length_append, List.length_cons, List.length_nil]
    omega
  · omega
  · simp only [List.length_append, List.length_cons, List.length_nil]
    omega

theorem isTerminated_of_text_eq {l : MaskedLine} {v blanks : Text}
    (htext : l.text = v ++ ';' :: blanks) (hblank : blanks.isBlank = true) :
    l.isTerminated = true := by
  have hnil : dropEndWhile CharClass.isBlank blanks = [] := by
    rw [isBlank, List.all_eq_true] at hblank
    rw [dropEndWhile_eq_rdropWhile, List.rdropWhile_eq_nil_iff]
    exact hblank
  rw [MaskedLine.isTerminated, htext, trimEnd, dropEndWhile_append_cons _ _ _ (by decide), hnil]
  simp

/-- A statement that starts on the last line but not at its start does so behind a semicolon. -/
theorem StartsAt.exists_semicolon {pre : List MaskedLine} {first k : Nat}
    (h : StartsAt separator t (pre ++ [line]) cursor first k) (hlt : line.first < first) :
    ∃ v, slice (t.mask .identifiers) line.first first = v ++ [';'] := by
  have hfirst := h.isCut.mask .identifiers
  have hlinefirst := (h.passage.standsIn line (by simp)).isCut_first.mask .identifiers
  have hbefore : ∀ l ∈ pre ++ [line], l.first ≤ line.first := by
    intro l hl
    rcases List.mem_append.mp hl with hpre | hown
    · have hapart := (List.pairwise_append.mp h.passage.pairwise).2.2 l hpre line (by simp)
      have hstands := (h.passage.standsIn l hl).first_le_last
      omega
    · rw [List.mem_singleton.mp hown]
  obtain rfl : k = first := by
    rcases startIn_cases (t.mask .identifiers) k (pre ++ [line]) with hsame | ⟨l, hl, heq, -⟩
    · rw [← h.startIn_eq, hsame]
    · have hlbefore := hbefore l hl
      rw [h.startIn_eq] at heq
      omega
  obtain ⟨head, hhead, hbehind⟩ := h.behind
  have hheadmem := List.mem_of_head? hhead
  have hheadle := hbefore head hheadmem
  have hheadcut := (h.passage.standsIn head hheadmem).isCut_first.mask .identifiers
  rcases hbehind.start with heq | ⟨w, hw⟩
  · omega
  · have hne : slice (t.mask .identifiers) line.first k ≠ [] := by
      intro hnil
      have hsize := size_slice hlinefirst hfirst (Nat.le_of_lt hlt)
      rw [hnil, size_nil] at hsize
      omega
    obtain ⟨v, c, hv⟩ := (List.eq_nil_or_concat _).resolve_left hne
    rw [List.concat_eq_append] at hv
    rw [slice_eq_append hheadcut hlinefirst hheadle (Nat.le_of_lt hlt), hv,
      ← List.append_assoc] at hw
    obtain ⟨-, hc⟩ := List.append_inj' hw rfl
    obtain rfl := (List.cons.inj hc).1
    exact ⟨v, hv⟩

/-- A line that holds the end of a statement but nothing of the next one is terminated. -/
theorem StartsAt.isTerminated {pre : List MaskedLine} {first k : Nat}
    (h : StartsAt separator t (pre ++ [line]) cursor first k)
    (hblank : (slice (t.mask .identifiers) first line.last).isBlank = true)
    (hlast : cursor ≤ line.last) : line.isTerminated = true := by
  have hline := h.passage.standsIn line (by simp)
  have hfirst := h.isCut.mask .identifiers
  have hlinefirst := hline.isCut_first.mask .identifiers
  have hle := h.le_cursor
  have hlt : line.first < first := by
    by_contra hge
    have htext : line.text.isBlank = true := by
      rw [hline.text_eq]
      exact isBlank_slice_of_le hblank hfirst hlinefirst (hline.isCut_last.mask _) (by omega)
        hline.first_le_last (Nat.le_refl _)
    have hbreak := h.passage.unbroken line (by simp)
    rw [MaskedLine.isBreak, htext] at hbreak
    contradiction
  obtain ⟨v, hv⟩ := h.exists_semicolon hlt
  have htext : line.text = v ++ ';' :: slice (t.mask .identifiers) first line.last := by
    rw [hline.text_eq, slice_eq_append hlinefirst hfirst (Nat.le_of_lt hlt) (by omega), hv]
    simp
  exact isTerminated_of_text_eq htext hblank

/-- On a line behind a semicolon, where no walk back leads on, blanks before the first character
change neither where the statement starts nor where it ends. -/
theorem extentAround?_of_isBlank {first n : Nat} (hline : line.StandsIn t)
    (hbreak : line.isBreak separator = false) (hwalked : walkedBack separator before = [])
    (hafter : ∀ l ∈ after, line.last < l.first) (hfirst : IsCut t first) (hn : IsCut t n)
    (hle : first ≤ line.first) (hlen : line.first ≤ n) (hlast : n ≤ line.last)
    (hblank : (slice t first n).isBlank = true)
    (hend : line.first ≤ lastFrom separator (t.mask .identifiers) first line.first line after) :
    extentAround? separator t n before.reverse line after =
      trimmed? t first (lastFrom separator (t.mask .identifiers) first line.first line after) := by
  have hlinecut := hline.isCut_first
  have hlead : (slice t first line.first).isBlank = true :=
    isBlank_slice_of_le hblank hfirst hfirst hlinecut (Nat.le_refl _) hle hlen
  have hown : (slice t line.first n).isBlank = true :=
    isBlank_slice_of_le hblank hfirst hlinecut hn hle hlen (Nat.le_refl _)
  have hfree : ';' ∉ slice (t.mask .identifiers) line.first n :=
    not_mem_of_isBlank (by decide) (isBlank_slice_mask _ hlinecut hn hlen hown)
  have hstart : firstIn (t.mask .identifiers) n [line] = line.first := by
    have hbehind : BehindSemicolon (t.mask .identifiers) line.first n line.first :=
      ⟨hlinecut.mask _, Nat.le_refl _, hlen, hfree, Or.inl rfl⟩
    rw [firstIn, startIn, hbehind.afterSemicolon_eq (hlinecut.mask _) (hn.mask _)]
  have houter : endIn separator (t.mask .identifiers) line.first line.last after =
      endIn separator (t.mask .identifiers) first line.last after := by
    apply endIn_congr
    intro l hl
    have hapart := hafter l hl
    have hlinele := hline.first_le_last
    exact (isOuter_of_isBlank (hfirst.mask _) (hlinecut.mask _) hle (by omega)
      (isBlank_slice_mask _ hfirst hlinecut hle hlead)).symm
  have hsame : lastFrom separator (t.mask .identifiers) line.first n line after =
      lastFrom separator (t.mask .identifiers) first line.first line after := by
    rw [← lastFrom_congr (hlinecut.mask _) (hn.mask _) hlen hlast hfree after, lastFrom, lastFrom,
      houter]
  rw [extentAround?_eq hbreak, hwalked, List.nil_append, hstart, hsame]
  exact trimmed?_of_isBlank hfirst hlinecut hle hend hlead

/-- When nothing is left on the line of the cursor, a statement begins on the next line, and the
lines from there on say where it ends. -/
theorem Scans.begins_below {next : MaskedLine} {rest : List MaskedLine} {first k : Nat}
    (h : Scans separator t cursor before line (next :: rest) x)
    (hstarts : StartsAt separator t (walkedBack separator before ++ [line]) cursor first k)
    (htrimmed : Trimmed t first
      (lastFrom separator (t.mask .identifiers) first cursor line (next :: rest)) x)
    (hbelow : next.first ≤ x.first) :
    line.isTerminated = true ∧ next.isBreak separator = false ∧ x.first < next.last ∧
      lastFrom separator (t.mask .identifiers) first cursor line (next :: rest) =
        lastFrom separator (t.mask .identifiers) first next.first next rest := by
  have hresumes := htrimmed.resumes hstarts.isCut
  have hpairwise := maskedLines_pairwise t
  rw [h.lines_eq] at hpairwise
  have hlinenext := (List.pairwise_cons.mp (List.pairwise_append.mp hpairwise).2.1).1 next
    List.mem_cons_self
  have hline := h.standsIn (l := line) (by simp)
  have hnext := h.standsIn (l := next) (by simp)
  have hnextle := hnext.first_le_last
  have hlt := htrimmed.standsIn.bounds.2.1
  have hxlast := htrimmed.last_le
  have hle := h.le_last
  have hfirstcursor := hstarts.le_cursor
  have hblank {m n : Nat} (hm : IsCut t m) (hn : IsCut t n) (hfirst : first ≤ m) (hmn : m ≤ n)
      (hbound : n ≤ x.first) : (slice (t.mask .identifiers) m n).isBlank = true :=
    isBlank_slice_of_le hresumes.isBlank (hstarts.isCut.mask _) (hm.mask _) (hn.mask _) hfirst hmn
      hbound
  have hterminated : line.isTerminated = true := by
    refine hstarts.isTerminated ?_ hle
    exact hblank hstarts.isCut hline.isCut_last (Nat.le_refl _) (by omega) (by omega)
  have hfree : ';' ∉ slice (t.mask .identifiers) cursor line.last :=
    not_mem_of_isBlank (by decide) (hblank h.isCut hline.isCut_last hfirstcursor hle (by omega))
  rw [lastFrom_of_not_mem hfree] at hxlast ⊢
  have hgoes : line.last <
      endIn separator (t.mask .identifiers) first line.last (next :: rest) := by
    omega
  obtain ⟨hunbroken, hbegins⟩ := unbroken_of_lt_endIn hgoes
  refine ⟨hterminated, hunbroken, ?_, endIn_cons rest hunbroken hbegins hnext.text_eq⟩
  by_contra hge
  have htext : next.text.isBlank = true := by
    rw [hnext.text_eq]
    exact hblank hnext.isCut_first hnext.isCut_last (by omega) hnextle (by omega)
  rw [MaskedLine.isBreak, htext] at hunbroken
  contradiction

/-- Behind the semicolon at the end of a line a statement begins on the line below, and is found
again from there. -/
theorem Scans.restart_below (h : Scans separator t cursor before line after x)
    (hbelow : ∃ l ∈ after, l.first ≤ x.first) :
    ∃ before' l' after', Scans separator t x.first before' l' after' x ∧ x.first < l'.last ∧
      Together separator t before'.length before.length := by
  obtain ⟨l, hl, hlfirst⟩ := hbelow
  obtain ⟨next, rest, rfl⟩ := List.exists_cons_of_ne_nil (List.ne_nil_of_mem hl)
  obtain ⟨first, k, hstarts, hfound, htrimmed⟩ := h.exists_startsAt
  have hresumes := htrimmed.resumes hstarts.isCut
  have hpairwise := maskedLines_pairwise t
  rw [h.lines_eq] at hpairwise
  have hlines := List.pairwise_cons.mp (List.pairwise_append.mp hpairwise).2.1
  have hnextrest := (List.pairwise_cons.mp hlines.2).1
  have hlinenext := hlines.1 next List.mem_cons_self
  have hnext := h.standsIn (l := next) (by simp)
  have hnextle := hnext.first_le_last
  have hnextfirst : next.first ≤ x.first := by
    rcases List.mem_cons.mp hl with rfl | hrest
    · exact hlfirst
    · have hapart := hnextrest l hrest
      omega
  obtain ⟨hterminated, hunbroken, hxnext, hlast⟩ := h.begins_below hstarts htrimmed hnextfirst
  have hfirstcursor := hstarts.le_cursor
  have hcursor := h.le_last
  have hlt := htrimmed.standsIn.bounds.2.1
  have hxlast := htrimmed.last_le
  rw [hlast] at hxlast hfound
  have hwalked : walkedBack separator (before ++ [line]) = [] :=
    List.rtakeWhile_concat_neg _ _ _ (by simp [MaskedLine.leadsOn, hterminated])
  refine ⟨before ++ [line], next, rest, ⟨?_, hresumes.isCut, hnextfirst, Nat.le_of_lt hxnext, ?_⟩,
    hxnext, before.rdropWhile (MaskedLine.leadsOn separator),
    walkedBack separator before ++ [line] ++ [next], rest, ?_, ?_, ?_⟩
  · rw [h.lines_eq]
    simp
  · rw [extentAround?_of_isBlank hnext hunbroken hwalked hnextrest hstarts.isCut hresumes.isCut
      (by omega) hnextfirst (Nat.le_of_lt hxnext) htrimmed.isBlank (by omega)]
    exact hfound
  · rw [h.lines_cut]
    simp
  · intro l' hl'
    rcases List.mem_append.mp hl' with hown | hnew
    · exact h.passage.unbroken l' hown
    · rw [List.mem_singleton.mp hnew]
      exact hunbroken
  · have hlength := congrArg List.length (rdropWhile_append_walkedBack separator before)
    simp only [List.length_append, List.length_cons, List.length_nil] at hlength ⊢
    omega

/-- An extent begins with a character that is no blank. -/
theorem exists_cons_of_standsIn (h : x.StandsIn t 0) :
    ∃ a c b, t = a ++ c :: b ∧ CharClass.isBlank c = false ∧ x.first = size a := by
  obtain ⟨a, part, b, ht, hfirst, -, hne, htrim⟩ := h.exists_append
  obtain ⟨c, more, rfl⟩ := List.exists_cons_of_ne_nil hne
  refine ⟨a, c, more ++ b, ?_, trim_head? (c :: more) (by rw [htrim]; rfl), ?_⟩
  · rw [ht, List.append_assoc, List.cons_append]
  · rw [hfirst, Nat.zero_add]

theorem Scans.extent_standsIn (h : Scans separator t cursor before line after x) :
    x.StandsIn t 0 := by
  obtain ⟨first, k, -, -, htrimmed⟩ := h.exists_startsAt
  exact htrimmed.standsIn

/-- The line scanner finds a statement again at its first character. -/
theorem Scans.restart (h : Scans separator t cursor before line after x) :
    ∃ before' line' after', Scans separator t x.first before' line' after' x ∧
      x.first < line'.last ∧ Together separator t before'.length before.length := by
  obtain ⟨first, k, hstarts, -, htrimmed⟩ := h.exists_startsAt
  obtain ⟨a, c, b, ht, hc, hsize⟩ := exists_cons_of_standsIn htrimmed.standsIn
  obtain ⟨i, l, hl, hfirst, hlast, -⟩ := exists_maskedLine_of_not_isBlank ht hc
  rw [← hsize] at hfirst hlast
  have hmem := List.mem_of_getElem? hl
  rw [h.lines_cut] at hmem
  rcases List.mem_append.mp hmem with hupto | hafter
  · rcases List.mem_append.mp hupto with hbefore | hown
    · obtain ⟨head, hhead, hbehind⟩ := hstarts.behind
      have hpairwise := maskedLines_pairwise t
      rw [h.lines_cut] at hpairwise
      have hapart := (List.pairwise_append.mp (List.pairwise_append.mp hpairwise).1).2.2 l hbefore
        head (List.mem_of_head? hhead)
      have hle := hbehind.first_le
      have hkfirst := hstarts.semicolon_le
      have hxfirst := htrimmed.first_le
      omega
    · obtain ⟨before', after', hscans, htogether⟩ := h.restart_within hown hfirst hlast
      exact ⟨before', l, after', hscans, hlast, htogether⟩
  · exact h.restart_below ⟨l, hafter, hfirst⟩

end Found

end Span

end SqlInsight
