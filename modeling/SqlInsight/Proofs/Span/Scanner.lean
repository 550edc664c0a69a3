/-
The line scanner, started again where the statement it found begins. Walking back it meets the same
lines, the same last semicolon and the same line that begins the statement; walking forward it meets
the same end. Only where a statement begins behind the semicolon that ends the line of the cursor
does it start on the line below, which then is the first one of the statement.
-/
import SqlInsight.Proofs.Span.MaskedLines
import SqlInsight.Proofs.Span.Partition

namespace SqlInsight

open Text

namespace Span

section Start

variable {m : Text} {first last : Nat}

/-- The offset behind the last semicolon between two cuts, or the first cut if there is none. -/
structure BehindSemicolon (m : Text) (first last k : Nat) : Prop where
  isCut : IsCut m k
  first_le : first ≤ k
  le_last : k ≤ last
  not_mem : ';' ∉ slice m k last
  start : k = first ∨ ∃ w, slice m first k = w ++ [';']

theorem BehindSemicolon.afterSemicolon_eq {k : Nat} (h : BehindSemicolon m first last k)
    (hfirst : IsCut m first) (hlast : IsCut m last) : afterSemicolon m first last = k := by
  have htail : (slice m first last).reverse.takeWhile (· != ';') =
      (slice m k last).reverse := by
    have hall : ∀ c ∈ (slice m k last).reverse, (c != ';') = true := by
      intro c hc
      have hne : c ≠ ';' := by
        rintro rfl
        exact h.not_mem (List.mem_reverse.mp hc)
      simpa using hne
    rw [slice_eq_append hfirst h.isCut h.first_le h.le_last, List.reverse_append,
      List.takeWhile_append_of_pos hall]
    rcases h.start with rfl | ⟨w, hw⟩
    · simp [slice_self]
    · simp [hw]
  have hsize := size_slice h.isCut hlast h.le_last
  have hle := h.le_last
  simp only [afterSemicolon, htail, size_reverse, hsize]
  omega

theorem behindSemicolon_afterSemicolon (hfirst : IsCut m first) (hlast : IsCut m last)
    (hle : first ≤ last) : BehindSemicolon m first last (afterSemicolon m first last) := by
  suffices h : ∃ k, BehindSemicolon m first last k by
    obtain ⟨k, hk⟩ := h
    rwa [hk.afterSemicolon_eq hfirst hlast]
  by_cases hmem : ';' ∈ slice m first last
  · obtain ⟨tail, w, hreverse, htail⟩ :=
      List.eq_append_cons_of_mem (List.mem_reverse.mpr hmem)
    have hslice : slice m first last = w.reverse ++ [';'] ++ tail.reverse := by
      rw [← List.reverse_reverse (slice m first last), hreverse]
      simp
    obtain ⟨a, c, hm, hsize, hend⟩ := exists_slice hfirst hlast hle
    rw [hslice] at hm hend
    have hcut : m = (a ++ (w.reverse ++ [';'])) ++ tail.reverse ++ c := by
      rw [hm]
      simp
    have hk : first + size (w.reverse ++ [';']) = size (a ++ (w.reverse ++ [';'])) := by
      rw [hsize, ← size_append]
    have hlast' : last = size (a ++ (w.reverse ++ [';']) ++ tail.reverse) := by
      rw [hend, hsize, ← size_append, ← List.append_assoc]
    refine ⟨first + size (w.reverse ++ [';']), ⟨_, _, hcut.trans (List.append_assoc _ _ _), hk⟩,
      Nat.le_add_right _ _, ?_, ?_, Or.inr ⟨w.reverse, ?_⟩⟩
    · rw [hlast', hk, size_append _ tail.reverse]
      exact Nat.le_add_right _ _
    · rw [slice_of_eq hcut hk hlast']
      exact fun hin => htail (List.mem_reverse.mp hin)
    · apply slice_of_eq (a := a) (c := tail.reverse ++ c)
      · rw [hm]
        simp
      · exact hsize
      · exact hk
  · exact ⟨first, hfirst, Nat.le_refl _, hle, hmem, Or.inl rfl⟩

theorem startIn_append (m : Text) (first : Nat) (a b : List MaskedLine) :
    startIn m first (a ++ b) = startIn m (startIn m first a) b := by
  induction a generalizing first with
  | nil => rfl
  | cons line rest ih => exact ih _

/-- A statement starts where it was found to start, or on a line further down. -/
theorem startIn_cases (m : Text) (first : Nat) (lines : List MaskedLine) :
    startIn m first lines = first ∨
      ∃ line ∈ lines, startIn m first lines = line.first ∧ first < line.first := by
  induction lines generalizing first with
  | nil => exact Or.inl rfl
  | cons line rest ih =>
      rw [startIn]
      by_cases hbegins : (first < line.first && isOuter m first line.first &&
          line.startsStatement) = true
      · simp only [hbegins, ↓reduceIte]
        have hlt : first < line.first := by
          simp only [Bool.and_eq_true, decide_eq_true_eq] at hbegins
          exact hbegins.1.1
        rcases ih line.first with hsame | ⟨l, hl, heq, hbelow⟩
        · exact Or.inr ⟨line, List.mem_cons_self, hsame, hlt⟩
        · exact Or.inr ⟨l, List.mem_cons_of_mem line hl, heq, Nat.lt_trans hlt hbelow⟩
      · simp only [hbegins, Bool.false_eq_true, ↓reduceIte]
        rcases ih first with hsame | ⟨l, hl, heq, hbelow⟩
        · exact Or.inl hsame
        · exact Or.inr ⟨l, List.mem_cons_of_mem line hl, heq, hbelow⟩

theorem le_startIn (m : Text) (first : Nat) (lines : List MaskedLine) :
    first ≤ startIn m first lines := by
  rcases startIn_cases m first lines with hsame | ⟨line, -, heq, hlt⟩
  · exact hsame.ge
  · omega

/-- Where no line moves the start, none of them begins a statement outside parentheses. -/
theorem not_begins_of_startIn_eq {lines : List MaskedLine} (h : startIn m first lines = first)
    (hlt : ∀ line ∈ lines, first < line.first) :
    ∀ line ∈ lines, (isOuter m first line.first && line.startsStatement) = false := by
  induction lines with
  | nil => simp
  | cons line rest ih =>
      have hline : first < line.first := hlt line List.mem_cons_self
      have hnot : (isOuter m first line.first && line.startsStatement) = false := by
        by_contra hbegins
        rw [Bool.not_eq_false] at hbegins
        have hle := le_startIn m line.first rest
        simp only [startIn, Bool.and_assoc, hbegins, hline, decide_true, Bool.and_self,
          ↓reduceIte] at h
        omega
      simp only [startIn, Bool.and_assoc, hnot, Bool.and_false, Bool.false_eq_true,
        ↓reduceIte] at h
      intro l hl
      rcases List.mem_cons.mp hl with rfl | hrest
      · exact hnot
      · exact ih h (fun l hl => hlt l (List.mem_cons_of_mem line hl)) l hrest

end Start

section End

variable {separator m : Text} {first : Nat}

/-- Where the statement that starts at `first` ends, looked for from the offset `cursor` of a line
on. -/
def lastFrom (separator m : Text) (first cursor : Nat) (line : MaskedLine)
    (after : List MaskedLine) : Nat :=
  match (m.slice cursor line.last).find? [';'] with
  | some offset => cursor + offset
  | none => endIn separator m first line.last after

theorem lastFrom_of_not_mem {cursor : Nat} {line : MaskedLine}
    (h : ';' ∉ slice m cursor line.last) (after : List MaskedLine) :
    lastFrom separator m first cursor line after = endIn separator m first line.last after := by
  rw [lastFrom, find?_of_not_mem h]

/-- Without a semicolon between them two offsets of a line lead to the same end. -/
theorem lastFrom_congr {cursor cursor' : Nat} {line : MaskedLine} (hcursor : IsCut m cursor)
    (hcursor' : IsCut m cursor') (hle : cursor ≤ cursor') (hlast : cursor' ≤ line.last)
    (h : ';' ∉ slice m cursor cursor') (after : List MaskedLine) :
    lastFrom separator m first cursor line after =
      lastFrom separator m first cursor' line after := by
  have hsize := size_slice hcursor hcursor' hle
  rw [lastFrom, lastFrom, slice_eq_append hcursor hcursor' hle hlast, find?_append h, hsize]
  cases find? (slice m cursor' line.last) [';'] with
  | none => rfl
  | some offset =>
      simp only [Option.map_some]
      omega

theorem endIn_cons {last : Nat} {line : MaskedLine} (after : List MaskedLine)
    (hbreak : line.isBreak separator = false)
    (hbegins : (isOuter m first line.first && line.startsStatement) = false)
    (htext : line.text = slice m line.first line.last) :
    endIn separator m first last (line :: after) =
      lastFrom separator m first line.first line after := by
  cases hfind : find? (slice m line.first line.last) [';'] with
  | none => simp [endIn, lastFrom, hbreak, hbegins, htext, hfind]
  | some offset => simp [endIn, lastFrom, hbreak, hbegins, htext, hfind]

/-- A statement that ends behind a line goes on in the next one. -/
theorem unbroken_of_lt_endIn {last : Nat} {line : MaskedLine} {after : List MaskedLine}
    (h : last < endIn separator m first last (line :: after)) :
    line.isBreak separator = false ∧
      (isOuter m first line.first && line.startsStatement) = false := by
  rw [endIn] at h
  constructor
  · by_contra hbreak
    rw [if_pos (by simpa using hbreak)] at h
    omega
  · by_contra hbegins
    split at h
    · omega
    · rw [if_pos (by simpa using hbegins)] at h
      omega

/-- The end of a statement that goes on through some lines. -/
theorem endIn_through {last : Nat} {through after : List MaskedLine} {line : MaskedLine}
    (hbreak : ∀ l ∈ through ++ [line], l.isBreak separator = false)
    (hbegins : ∀ l ∈ through ++ [line],
      (isOuter m first l.first && l.startsStatement) = false)
    (htext : ∀ l ∈ through ++ [line], l.text = slice m l.first l.last)
    (hnone : ∀ l ∈ through, ';' ∉ slice m l.first l.last) :
    endIn separator m first last (through ++ line :: after) =
      lastFrom separator m first line.first line after := by
  induction through generalizing last with
  | nil =>
      have hline : line ∈ [] ++ [line] := List.mem_singleton_self line
      exact endIn_cons after (hbreak line hline) (hbegins line hline) (htext line hline)
  | cons l rest ih =>
      have hl : l ∈ l :: rest ++ [line] := by simp
      rw [List.cons_append, endIn_cons _ (hbreak l hl) (hbegins l hl) (htext l hl),
        lastFrom_of_not_mem (hnone l List.mem_cons_self)]
      apply ih
      · exact fun x hx => hbreak x (List.mem_cons_of_mem l hx)
      · exact fun x hx => hbegins x (List.mem_cons_of_mem l hx)
      · exact fun x hx => htext x (List.mem_cons_of_mem l hx)
      · exact fun x hx => hnone x (List.mem_cons_of_mem l hx)

/-- A statement ends at the end of a line or at a semicolon: at a cut of the buffer. -/
theorem isCut_lastFrom {t : Text} {cursor : Nat} {line : MaskedLine} {after : List MaskedLine}
    (hcursor : IsCut t cursor) (hline : line.StandsIn t) (hle : cursor ≤ line.last)
    (hafter : ∀ l ∈ after, l.StandsIn t) :
    IsCut t (lastFrom separator (t.mask .identifiers) first cursor line after) := by
  have hfind {k n offset : Nat} (hk : IsCut t k) (hn : IsCut t n) (hkn : k ≤ n)
      (h : (slice (t.mask .identifiers) k n).find? [';'] = some offset) :
      IsCut t (k + offset) := by
    obtain ⟨a, b, hslice, -, rfl⟩ := exists_of_find? h
    obtain ⟨before, behind, hmask, rfl, -⟩ :=
      exists_slice (hk.mask .identifiers) (hn.mask .identifiers) hkn
    rw [hslice] at hmask
    have hcut : t.mask .identifiers = (before ++ a) ++ ';' :: (b ++ behind) := by
      rw [hmask]
      simp
    rw [← size_append]
    exact (isCut_of_mask (by decide) hcut).1
  have hend (last : Nat) (hlast : IsCut t last) (lines : List MaskedLine)
      (hlines : ∀ l ∈ lines, l.StandsIn t) :
      IsCut t (endIn separator (t.mask .identifiers) first last lines) := by
    induction lines generalizing last with
    | nil => exact hlast
    | cons l rest ih =>
        have hl := hlines l List.mem_cons_self
        rw [endIn]
        split
        · exact hlast
        · split
          · exact hlast
          · split
            · rename_i offset hoffset
              rw [hl.text_eq] at hoffset
              exact hfind hl.isCut_first hl.isCut_last hl.first_le_last hoffset
            · exact ih _ hl.isCut_last fun x hx => hlines x (List.mem_cons_of_mem l hx)
  rw [lastFrom]
  split
  · rename_i offset hoffset
    exact hfind hcursor hline.isCut_last hle hoffset
  · exact hend _ hline.isCut_last after hafter

theorem endIn_congr {first' last : Nat} {after : List MaskedLine}
    (h : ∀ l ∈ after, isOuter m first l.first = isOuter m first' l.first) :
    endIn separator m first last after = endIn separator m first' last after := by
  induction after generalizing last with
  | nil => rfl
  | cons l rest ih =>
      rw [endIn, endIn, h l List.mem_cons_self,
        ih fun x hx => h x (List.mem_cons_of_mem l hx)]

end End

theorem openAfter_append (depth : Nat) (a b : Text) :
    openAfter depth (a ++ b) = openAfter (openAfter depth a) b := by
  induction a generalizing depth with
  | nil => rfl
  | cons c rest ih => exact ih _

theorem openAfter_of_isBlank {a : Text} (h : a.isBlank = true) (depth : Nat) :
    openAfter depth a = depth := by
  induction a generalizing depth with
  | nil => rfl
  | cons c rest ih =>
      rw [isBlank, List.all_cons, Bool.and_eq_true] at h
      have hopen : c ≠ '(' := by
        rintro rfl
        exact absurd h.1 (by decide)
      have hclose : c ≠ ')' := by
        rintro rfl
        exact absurd h.1 (by decide)
      rw [openAfter, if_neg hopen, if_neg hclose]
      exact ih h.2 depth

/-- Blanks where a statement starts open no parenthesis. -/
theorem isOuter_of_isBlank {m : Text} {first first' n : Nat} (hfirst : IsCut m first)
    (hfirst' : IsCut m first') (hle : first ≤ first') (hn : first' ≤ n)
    (hblank : (slice m first first').isBlank = true) :
    isOuter m first n = isOuter m first' n := by
  rw [isOuter, isOuter, slice_eq_append hfirst hfirst' hle hn, openAfter_append,
    openAfter_of_isBlank hblank]

section Trimmed

variable {t : Text} {first last : Nat} {x : Extent}

/-- The statement of a stretch of a buffer: the stretch without blanks around it, unless it holds no
code. -/
def trimmed? (t : Text) (first last : Nat) : Option Extent :=
  (Piece.ofStretch? first (t.slice first last) false).map fun p => ⟨p.first, p.last, 0⟩

theorem trimmed?_eq (t : Text) (first last : Nat) :
    trimmed? t first last =
      if (t.slice first last).isBlankSql then none
      else
        let lead := (t.slice first last).size - (t.slice first last).trimStart.size
        some ⟨first + lead, first + lead + (t.slice first last).trim.size, 0⟩ := by
  rw [trimmed?, Piece.ofStretch?]
  split <;> rfl

/-- The statement of a stretch lies in the stretch, behind blanks. -/
structure Trimmed (t : Text) (first last : Nat) (x : Extent) : Prop where
  standsIn : x.StandsIn t 0
  first_le : first ≤ x.first
  last_le : x.last ≤ last
  isBlank : (slice t first x.first).isBlank = true

theorem trimmed_of_trimmed? (hfirst : IsCut t first) (hlast : IsCut t last)
    (h : trimmed? t first last = some x) : Trimmed t first last x := by
  obtain ⟨p, hp, rfl⟩ := Option.map_eq_some_iff.mp h
  have hle : first ≤ last := by
    by_contra hgt
    have hempty : slice t first last = [] := by
      rw [slice, Nat.sub_eq_zero_of_le (by omega), takeBytes_zero]
    rw [hempty] at hp
    exact absurd hp (by simp [Piece.ofStretch?, isBlankSql, mask, regions, regionsFrom, isBlank])
  obtain ⟨a, c, ht, hsize, hend⟩ := exists_slice hfirst hlast hle
  have hstands := Piece.ofStretch?_standsIn hp
  have hbound := hstands.last_le
  obtain ⟨lead, tail, htrim, hblank, -, hlead⟩ := exists_trim (slice t first last)
  have hpfirst : p.first = first + size lead := by
    rw [Piece.ofStretch?] at hp
    split at hp
    · contradiction
    · rw [← Option.some.inj hp, ← hlead]
  have hlead' : slice t first p.first = lead := by
    apply slice_of_eq (a := a) (c := (slice t first last).trim ++ tail ++ c)
    · conv_lhs => rw [ht, htrim]
      simp
    · exact hsize
    · rw [hpfirst, hsize, size_append]
  refine ⟨?_, hstands.le_first, by dsimp only; omega, ?_⟩
  · obtain ⟨before, after, hslice, hbefore⟩ := hstands.exists_append
    refine ⟨a ++ before, p.text, after ++ c, ?_, ?_, hstands.last_eq, hstands.ne_nil,
      hstands.trim_eq⟩
    · conv_lhs => rw [ht, hslice]
      simp
    · rw [hbefore, hsize, size_append, Nat.zero_add]
  · rw [hlead', isBlank, List.all_eq_true]
    exact hblank

/-- A stretch that starts behind some of the blanks holds the same statement. -/
theorem trimmed?_of_isBlank {first' : Nat} (hfirst : IsCut t first) (hfirst' : IsCut t first')
    (hle : first ≤ first') (hlast : first' ≤ last)
    (hblank : (slice t first first').isBlank = true) :
    trimmed? t first' last = trimmed? t first last := by
  have hsize := size_slice hfirst hfirst' hle
  have hraw := slice_eq_append hfirst hfirst' hle hlast
  have htrim : (slice t first last).trim = (slice t first' last).trim := by
    rw [hraw, trim, trim, trimStart_append_of_isBlank hblank]
  have hstart : size (slice t first' last).trimStart ≤ size (slice t first' last) := by
    have happend : slice t first' last =
        (slice t first' last).takeWhile CharClass.isBlank ++ (slice t first' last).trimStart :=
      List.takeWhile_append_dropWhile.symm
    conv_rhs => rw [happend, size_append]
    exact Nat.le_add_left _ _
  have hlead : first + (size (slice t first last) - size (slice t first last).trimStart) =
      first' + (size (slice t first' last) - size (slice t first' last).trimStart) := by
    rw [hraw, trimStart_append_of_isBlank hblank, size_append, hsize]
    omega
  have hcode : (slice t first last).isBlankSql = (slice t first' last).isBlankSql := by
    rw [hraw, isBlankSql_append_of_isBlank hblank]
  simp only [trimmed?_eq, hlead, htrim, hcode]

end Trimmed

end Span

end SqlInsight
