/-
The line scanner with every slice checked: its ends have to be in order, and each has to be an
offset of the text at which a character begins or the text ends. No check fails, whatever the buffer
and the cursor are, so what the scanner finds is what it finds unchecked.
-/
import SqlInsight.Proofs.Batch.Segments
import SqlInsight.Proofs.Reading.Ladder
import SqlInsight.Proofs.Span.Isolated
import SqlInsight.Proofs.Text.Utf8

namespace SqlInsight

open Text

namespace Span

def MaskedLine.cutOut (masked : Text) (line : MaskedLine) : Sliced MaskedLine := do
  let text ← masked.sliced line.first line.last
  return { line with text }

/-- The lines that a walk back goes over, the nearest one first. -/
def walkBackSliced (separator masked : Text) : List MaskedLine → Sliced (List MaskedLine)
  | [] => return []
  | line :: rest => do
      let line ← line.cutOut masked
      if line.isBreak separator || line.isTerminated then return []
      else return line :: (← walkBackSliced separator masked rest)

/-- Whether a line begins a statement outside the parentheses opened since `first`. -/
def beginsSliced (masked : Text) (first : Nat) (line : MaskedLine) : Sliced Bool := do
  let passed ← masked.sliced first line.first
  if openAfter 0 passed = 0 then return (← line.cutOut masked).startsStatement
  else return false

/-- Where the statement starts that goes on in these lines when it starts at `first` or later. -/
def startInSliced (masked : Text) (first : Nat) : List MaskedLine → Sliced Nat
  | [] => return first
  | line :: rest => do
      let begins ← if first < line.first then beginsSliced masked first line else pure false
      startInSliced masked (if begins then line.first else first) rest

/-- The offset after the last semicolon of a stretch, or that of its start. -/
def afterSemicolonSliced (masked : Text) (first last : Nat) : Sliced Nat := do
  let passed ← masked.sliced first last
  return last - Text.size (passed.reverse.takeWhile (· != ';'))

/-- Where the statement that goes on to `cursor` in these lines starts. -/
def firstInSliced (masked : Text) (cursor : Nat) : List MaskedLine → Sliced Nat
  | [] => return cursor
  | line :: rest => do
      startInSliced masked (← afterSemicolonSliced masked line.first cursor) rest

/-- Where the statement that starts at `first` ends when the lines after those up to `last` follow
it. -/
def endInSliced (separator masked : Text) (first last : Nat) : List MaskedLine → Sliced Nat
  | [] => return last
  | line :: rest => do
      let line ← line.cutOut masked
      if line.isBreak separator then return last
      else if ← beginsSliced masked first line then return last
      else
        match line.text.find? [';'] with
        | some offset => return line.first + offset
        | none => endInSliced separator masked first line.last rest

/-- Where the statement that starts at `first` ends, looked for from the offset `cursor` of a line
on. -/
def lastFromSliced (separator masked : Text) (first cursor : Nat) (line : MaskedLine)
    (after : List MaskedLine) : Sliced Nat := do
  let ahead ← masked.sliced cursor line.last
  match ahead.find? [';'] with
  | some offset => return cursor + offset
  | none => endInSliced separator masked first line.last after

def spanSliced (t : Text) (x : Extent) : Sliced Span := do
  return ⟨← t.sliced x.first x.last, t.position x.first, t.position x.last, x.index⟩

/-- The statement of a stretch of a buffer, unless the stretch holds no code. -/
def trimmedSliced (t : Text) (first last : Nat) : Sliced (Option Span) := do
  let raw ← t.sliced first last
  if raw.isBlankSql then return none
  else
    let lead := raw.size - raw.trimStart.size
    return some (← spanSliced t ⟨first + lead, first + lead + raw.trim.size, 0⟩)

/-- The statement around the offset `cursor` on a line, between the lines before it, the nearest one
first, and those after it. -/
def spanAroundSliced (separator t : Text) (cursor : Nat) (before : List MaskedLine)
    (line : MaskedLine) (after : List MaskedLine) : Sliced (Option Span) := do
  let masked := t.mask .identifiers
  if (← line.cutOut masked).isBreak separator then return none
  else
    let own := (← walkBackSliced separator masked before).reverse ++ [line]
    let first ← firstInSliced masked cursor own
    let last ← lastFromSliced separator masked first cursor line after
    trimmedSliced t first last

/-- The statement around the offset `cursor`, which lies on the line of that number, counted from
one. -/
def scanLinesSliced (separator t : Text) (number cursor : Nat) : Sliced (Option Span) :=
  let lines := maskedLines t
  match lines.drop (number - 1) with
  | [] => return none
  | line :: after =>
      spanAroundSliced separator t cursor (lines.take (number - 1)).reverse line after

section

variable {separator t : Text} {first cursor : Nat} {line : MaskedLine}

theorem cutOut_eq (h : line.StandsIn t) : line.cutOut (t.mask .identifiers) = .ok line := by
  rw [MaskedLine.cutOut, sliced_eq (h.isCut_first.mask _) (h.isCut_last.mask _) h.first_le_last,
    ← h.text_eq]
  rfl

theorem walkBackSliced_eq {before : List MaskedLine} (h : ∀ l ∈ before, l.StandsIn t) :
    walkBackSliced separator (t.mask .identifiers) before =
      .ok (before.takeWhile fun l => !l.isBreak separator && !l.isTerminated) := by
  induction before with
  | nil => rfl
  | cons line rest ih =>
      have hrest := ih fun l hl => h l (List.mem_cons_of_mem line hl)
      rw [walkBackSliced, cutOut_eq (h line List.mem_cons_self), ok_bind, hrest, ok_bind,
        List.takeWhile_cons]
      cases line.isBreak separator <;> cases line.isTerminated <;> rfl

theorem beginsSliced_eq (hline : line.StandsIn t) (hfirst : IsCut t first)
    (hle : first ≤ line.first) :
    beginsSliced (t.mask .identifiers) first line =
      .ok (isOuter (t.mask .identifiers) first line.first && line.startsStatement) := by
  rw [beginsSliced, sliced_eq (hfirst.mask _) (hline.isCut_first.mask _) hle, ok_bind,
    cutOut_eq hline, ok_bind, isOuter]
  split
  · rename_i houter
    rw [houter]
    rfl
  · rename_i hinner
    rw [beq_eq_false_iff_ne.mpr hinner]
    rfl

theorem startInSliced_eq {lines : List MaskedLine} (hlines : ∀ l ∈ lines, l.StandsIn t)
    (hfirst : IsCut t first) :
    startInSliced (t.mask .identifiers) first lines =
      .ok (startIn (t.mask .identifiers) first lines) := by
  induction lines generalizing first with
  | nil => rfl
  | cons line rest ih =>
      have hline := hlines line List.mem_cons_self
      have hrest {first : Nat} (hfirst : IsCut t first) :=
        ih (fun l hl => hlines l (List.mem_cons_of_mem line hl)) hfirst
      rw [startInSliced, startIn]
      by_cases hlt : first < line.first
      · rw [if_pos hlt, beginsSliced_eq hline hfirst (Nat.le_of_lt hlt), ok_bind,
          decide_eq_true hlt, Bool.true_and]
        cases isOuter (t.mask .identifiers) first line.first && line.startsStatement with
        | true => exact hrest hline.isCut_first
        | false => exact hrest hfirst
      · rw [if_neg hlt, decide_eq_false hlt]
        exact hrest hfirst

theorem endInSliced_eq (separator : Text) (last : Nat) {lines : List MaskedLine}
    (hlines : ∀ l ∈ lines, l.StandsIn t) (hfirst : IsCut t first)
    (hle : ∀ l ∈ lines, first ≤ l.first) :
    endInSliced separator (t.mask .identifiers) first last lines =
      .ok (endIn separator (t.mask .identifiers) first last lines) := by
  induction lines generalizing last with
  | nil => rfl
  | cons line rest ih =>
      have hline := hlines line List.mem_cons_self
      have hrest := ih line.last (fun l hl => hlines l (List.mem_cons_of_mem line hl))
        fun l hl => hle l (List.mem_cons_of_mem line hl)
      rw [endInSliced, endIn, cutOut_eq hline, ok_bind,
        beginsSliced_eq hline hfirst (hle line List.mem_cons_self), ok_bind]
      split
      · rfl
      · split
        · rfl
        · cases line.text.find? [';'] with
          | none => exact hrest
          | some offset => rfl

theorem lastFromSliced_eq {after : List MaskedLine} (hcursor : IsCut t cursor)
    (hline : line.StandsIn t) (hle : cursor ≤ line.last) (hafter : ∀ l ∈ after, l.StandsIn t)
    (hfirst : IsCut t first) (hbehind : ∀ l ∈ after, first ≤ l.first) :
    lastFromSliced separator (t.mask .identifiers) first cursor line after =
      .ok (lastFrom separator (t.mask .identifiers) first cursor line after) := by
  have hend := endInSliced_eq separator line.last hafter hfirst hbehind
  rw [lastFromSliced, lastFrom, sliced_eq (hcursor.mask _) (hline.isCut_last.mask _) hle, ok_bind]
  cases (slice (t.mask .identifiers) cursor line.last).find? [';'] with
  | none => exact hend
  | some offset => rfl

theorem spanSliced_eq {x : Extent} (h : x.StandsIn t 0) : spanSliced t x = .ok (x.span t) := by
  obtain ⟨hfirst, hlast⟩ := isCut_of_standsIn h
  rw [spanSliced, sliced_eq hfirst hlast (Nat.le_of_lt h.bounds.2.1)]
  rfl

theorem trimmedSliced_eq {last : Nat} (hfirst : IsCut t first) (hlast : IsCut t last)
    (hle : first ≤ last) :
    trimmedSliced t first last = .ok ((trimmed? t first last).map (Extent.span t)) := by
  rw [trimmedSliced, sliced_eq hfirst hlast hle, ok_bind]
  cases htrimmed : trimmed? t first last with
  | none =>
      rw [trimmed?_eq] at htrimmed
      split at htrimmed
      · rename_i hblank
        rw [if_pos hblank]
        rfl
      · contradiction
  | some x =>
      have hspan := spanSliced_eq (trimmed_of_trimmed? hfirst hlast htrimmed).standsIn
      rw [trimmed?_eq] at htrimmed
      split at htrimmed
      · contradiction
      · rename_i hcode
        obtain rfl := Option.some.inj htrimmed
        rw [if_neg hcode]
        dsimp only
        rw [hspan]
        rfl

theorem afterSemicolonSliced_eq {m : Text} {first last : Nat} (hfirst : IsCut m first)
    (hlast : IsCut m last) (hle : first ≤ last) :
    afterSemicolonSliced m first last = .ok (afterSemicolon m first last) := by
  rw [afterSemicolonSliced, sliced_eq hfirst hlast hle]
  rfl

theorem firstInSliced_eq {lines : List MaskedLine} {k : Nat}
    (h : StartsAt separator t lines cursor first k) :
    firstInSliced (t.mask .identifiers) cursor lines = .ok first := by
  obtain ⟨head, hhead, hbehind⟩ := h.behind
  obtain ⟨rest, rfl⟩ := List.head?_eq_some_iff.mp hhead
  have hcut := (h.passage.standsIn head List.mem_cons_self).isCut_first
  have hrest : ∀ l ∈ rest, l.StandsIn t := fun l hl =>
    h.passage.standsIn l (List.mem_cons_of_mem head hl)
  have hstart := h.startIn_eq
  rw [startIn_head hbehind.first_le] at hstart
  rw [firstInSliced, afterSemicolonSliced_eq (hcut.mask _) (h.isCut_cursor.mask _)
    (Nat.le_trans hbehind.first_le hbehind.le_last), ok_bind,
    hbehind.afterSemicolon_eq (hcut.mask _) (h.isCut_cursor.mask _),
    startInSliced_eq hrest (hbehind.isCut_text hcut), hstart]

/-- No slice that the scanner takes is out of the text, out of order or inside a character. -/
theorem spanAroundSliced_eq {before after : List MaskedLine}
    (hlines : maskedLines t = before ++ line :: after) (hcursor : IsCut t cursor)
    (hfirst : line.first ≤ cursor) (hlast : cursor ≤ line.last) :
    spanAroundSliced separator t cursor before.reverse line after =
      .ok ((extentAround? separator t cursor before.reverse line after).map (Extent.span t)) := by
  have hpairwise := maskedLines_pairwise t
  have hstands : ∀ l ∈ maskedLines t, l.StandsIn t := fun l => standsIn_of_mem_maskedLines
  rw [hlines] at hpairwise hstands
  have hline := hstands line (by simp)
  have hafter : ∀ l ∈ after, l.StandsIn t := fun l hl => hstands l (by simp [hl])
  have hbefore : ∀ l ∈ before.reverse, l.StandsIn t := fun l hl =>
    hstands l (List.mem_append_left _ (List.mem_reverse.mp hl))
  have hforward := (List.pairwise_append.mp hpairwise).2.1
  have hbehind : ∀ l ∈ after, cursor ≤ l.first := by
    intro l hl
    have hapart := (List.pairwise_cons.mp hforward).1 l hl
    omega
  rw [spanAroundSliced, cutOut_eq hline]
  dsimp only
  rw [ok_bind]
  cases hbreak : line.isBreak separator with
  | true =>
      rw [extentAround?, hbreak]
      rfl
  | false =>
      obtain ⟨k, hstarts⟩ := exists_startsAt_walkedBack hlines hbreak hcursor hfirst
      have hle := hstarts.le_cursor
      obtain ⟨hend, -⟩ := lastFrom_goesOver separator _ hcursor hline hlast hafter hforward
      rw [if_neg Bool.false_ne_true, walkBackSliced_eq hbefore, ok_bind]
      change (firstInSliced _ cursor (walkedBack separator before ++ [line]) >>= _) = _
      rw [firstInSliced_eq hstarts, ok_bind, lastFromSliced_eq hcursor hline hlast hafter
        hstarts.isCut fun l hl => Nat.le_trans hle (hbehind l hl), ok_bind,
        trimmedSliced_eq hstarts.isCut (isCut_lastFrom hcursor hline hlast hafter)
          (Nat.le_trans hle hend), extentAround?_eq hbreak]

/-- The statement of a stretch is the stretch without the blanks around it. -/
theorem exists_of_trimmed? {last : Nat} {x : Extent} (hfirst : IsCut t first) (hlast : IsCut t last)
    (hle : first ≤ last) (h : trimmed? t first last = some x) :
    ∃ lead tail, slice t first last = lead ++ (x.span t).text ++ tail ∧ lead.isBlank = true ∧
      tail.isBlank = true ∧ x.first = first + size lead ∧ (x.span t).text.trim = (x.span t).text ∧
      (x.span t).text.isBlankSql = false := by
  obtain ⟨p, hp, rfl⟩ := Option.map_eq_some_iff.mp h
  obtain ⟨⟨⟨lead, tail, hraw, hlead, htail, hpfirst⟩, hplast, htrim, hcode⟩, -⟩ :=
    Piece.ofStretch?_eq_some_iff.mp hp
  obtain ⟨a, c, ht, hsize, -⟩ := exists_slice hfirst hlast hle
  have htext : slice t p.first p.last = p.text := by
    apply slice_of_eq (a := a ++ lead) (c := tail ++ c)
    · conv_lhs => rw [ht, hraw]
      simp
    · rw [hpfirst, hsize, size_append]
    · rw [hplast, hpfirst, hsize, size_append, size_append]
  refine ⟨lead, tail, ?_, hlead, htail, hpfirst, ?_, ?_⟩
  · simpa only [Extent.span, htext] using hraw
  · simpa only [Extent.span, htext] using htrim
  · simpa only [Extent.span, htext] using hcode

theorem exists_lines_of_offset? {p : Position} (h : t.offset? p = some cursor) :
    ∃ before line after, maskedLines t = before ++ line :: after ∧ before.length = p.line - 1 ∧
      IsCut t cursor ∧ line.first ≤ cursor ∧ cursor ≤ line.last := by
  obtain ⟨line, hline, -, hcut, hfirst, hlast⟩ := exists_maskedLine_of_offset? h
  obtain ⟨hlt, rfl⟩ := List.getElem?_eq_some_iff.mp hline
  refine ⟨(maskedLines t).take (p.line - 1), _, (maskedLines t).drop (p.line - 1 + 1), ?_, ?_,
    hcut, hfirst, hlast⟩
  · rw [← List.drop_eq_getElem_cons hlt, List.take_append_drop]
  · rw [List.length_take]
    omega

end

/-- Whatever the buffer and the cursor are, no slice that the line scanner takes is out of the text,
out of order or inside a character. The statement it finds is a stretch of the buffer around the
cursor without the blanks around it: it holds code, no semicolon lies in the stretch, no line that
the stretch touches is a break, and on no line behind its first one another statement begins. It is
the statement that belongs to the cursor when the batch there cannot be read. -/
theorem scanLines?_isolates {separator t : Text} {p : Position} {cursor : Nat}
    (hcursor : t.offset? p = some cursor) :
    scanLinesSliced separator t p.line cursor =
        .ok ((scanLines? separator t p.line cursor).map (Extent.span t)) ∧
      (∀ x, scanLines? separator t p.line cursor = some x →
        ∃ first last lead tail, Isolates separator t cursor first last ∧
          slice t first last = lead ++ (x.span t).text ++ tail ∧ lead.isBlank = true ∧
          tail.isBlank = true ∧ x.first = first + size lead ∧
          (x.span t).text.trim = (x.span t).text ∧ (x.span t).text.isBlankSql = false) ∧
      ∀ (e : Engine) (b : Batch) (failure : SyntaxError), e.settings.batchSeparator = separator →
        batchAt? t (Batch.split separator t) p.line = some b →
        e.ladder.readStrictly b.text = .error failure →
        locate? e t p = (scanLines? separator t p.line cursor).map (Extent.span t) := by
  obtain ⟨before, line, after, hlines, hlength, hcut, hfirst, hlast⟩ :=
    exists_lines_of_offset? hcursor
  have hscan : scanLines? separator t p.line cursor =
      extentAround? separator t cursor before.reverse line after := by
    rw [scanLines?, hlines, ← hlength, List.drop_left, List.take_left]
  refine ⟨?_, fun x hx => ?_, ?_⟩
  · rw [hscan, scanLinesSliced, hlines, ← hlength, List.drop_left, List.take_left]
    exact spanAroundSliced_eq hlines hcut hfirst hlast
  · rw [hscan] at hx
    have hscans : Scans separator t cursor before line after x := ⟨hlines, hcut, hfirst, hlast, hx⟩
    obtain ⟨first, last, hisolates, htrimmed⟩ := hscans.exists_isolates
    obtain ⟨lead, tail, hrest⟩ := exists_of_trimmed? hisolates.isCut_first hisolates.isCut_last
      (Nat.le_trans hisolates.first_le hisolates.le_last) htrimmed
    exact ⟨first, last, lead, tail, hisolates, hrest⟩
  · rintro e b failure rfl hbatch hfailure
    rw [locate?, hcursor]
    simp only [Option.bind_eq_bind, Option.bind_some, hbatch, Extent.ofReading?, hfailure]
    cases scanLines? e.settings.batchSeparator t p.line cursor <;> rfl

/-- A text in which a statement begins behind a semicolon, goes over a line that begins with the
word of a statement in parentheses, and ends where the next one begins. -/
def threeStatements : Text :=
  "SELECT 1; SELECT f(\nSELECT x\n) +\nDROP t".toList

theorem scanLines?_isolates_parentheses :
    threeStatements.offset? ⟨3, 2⟩ = some 30 ∧
      scanLinesSliced "GO".toList threeStatements 3 30 =
        .ok (some ⟨"SELECT f(\nSELECT x\n) +".toList, ⟨1, 11⟩, ⟨3, 4⟩, 0⟩) ∧
      (∃ first last, Isolates "GO".toList threeStatements 30 first last) ∧
      locate? ⟨fun _ _ => .error .tooDeep, {}⟩ threeStatements ⟨3, 2⟩ =
        some ⟨"SELECT f(\nSELECT x\n) +".toList, ⟨1, 11⟩, ⟨3, 4⟩, 0⟩ := by
  have hcursor : threeStatements.offset? ⟨3, 2⟩ = some 30 := by decide +kernel
  have hscan : scanLines? "GO".toList threeStatements 3 30 = some ⟨10, 32, 0⟩ := by decide +kernel
  have hspan : (⟨10, 32, 0⟩ : Extent).span threeStatements =
      ⟨"SELECT f(\nSELECT x\n) +".toList, ⟨1, 11⟩, ⟨3, 4⟩, 0⟩ := by decide +kernel
  obtain ⟨hsliced, hisolates, hlocate⟩ :=
    @scanLines?_isolates "GO".toList threeStatements ⟨3, 2⟩ 30 hcursor
  rw [hscan, Option.map_some, hspan] at hsliced
  obtain ⟨first, last, -, -, hstretch, -⟩ := hisolates _ hscan
  have hbatch : (batchAt? threeStatements (Batch.split "GO".toList threeStatements) 3).isSome =
      true := by decide +kernel
  obtain ⟨b, hb⟩ := Option.isSome_iff_exists.mp hbatch
  have hfailure : (Engine.ladder ⟨fun _ _ => .error .tooDeep, {}⟩).readStrictly b.text =
      .error .tooDeep := by
    refine (Ladder.readStrictly_eq_error_iff _ _ _).mpr ⟨fun s _ => ?_, rfl⟩
    rw [Ladder.attempt?]
    split <;> rfl
  refine ⟨hcursor, hsliced, ⟨first, last, hstretch⟩, ?_⟩
  rw [hlocate _ b .tooDeep rfl hb hfailure, hscan, Option.map_some, hspan]

end Span

end SqlInsight
