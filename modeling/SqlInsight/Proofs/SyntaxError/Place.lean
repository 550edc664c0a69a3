/-
Places that are read back from messages. The search finds the first place that stands in a message:
the words for the line and the column, and the digits of each, as many as there are. A place that is
written behind a text is found exactly if none stands in the text itself. So the place and the text
are read back from every message whose text holds no place, and of any other the first place in the
text is taken for that of the message.
-/
import SqlInsight.Proofs.Text.Cut
import SqlInsight.Proofs.Text.Matches
import SqlInsight.Reading.Standard

namespace SqlInsight

namespace PlaceMark

open Text

/-- Some decimal digits, at least one. -/
def IsNumeral (digits : Text) : Prop :=
  digits ≠ [] ∧ ∀ c ∈ digits, CharClass.isDecimal c = true

/-- A place begins a text: blanks, the words for the line and the column with the digits of each,
and what is no digit any more. -/
structure Begins (mark : PlaceMark) (t : Text) : Prop where
  text : ∃ blanks : Text, blanks.isBlank = true ∧
    t = blanks ++ ("at Line: ".toList ++ (mark.line ++
      (", Column: ".toList ++ (mark.column ++ mark.after))))
  line : IsNumeral mark.line
  column : IsNumeral mark.column
  ends : ∀ c ∈ mark.after.head?, CharClass.isDecimal c = false

/-- A place stands in a text behind what is before it. -/
def StandsIn (mark : PlaceMark) (t : Text) : Prop :=
  ∃ behind, t = mark.before ++ behind ∧ mark.Begins behind

/-- No place of a text stands before this one. -/
structure IsFirst (mark : PlaceMark) (t : Text) : Prop where
  stands : mark.StandsIn t
  le : ∀ other : PlaceMark, other.StandsIn t → mark.before.length ≤ other.before.length

variable {t d digits rest : Text} {mark mark' : PlaceMark} {c : Char}

/-! ## The search -/

theorem afterText?_eq_some_iff {start : Text} :
    afterText? start t = some rest ↔ t = start ++ rest := by
  unfold afterText?
  constructor
  · intro h
    split at h
    · rename_i hstarts
      obtain ⟨more, rfl⟩ := startsWith_iff.mp hstarts
      rw [List.drop_left] at h
      rw [Option.some.inj h]
    · contradiction
  · rintro rfl
    rw [if_pos (startsWith_iff.mpr (List.prefix_append start rest)), List.drop_left]

theorem digits?_eq_some_iff :
    digits? t = some (digits, rest) ↔
      IsNumeral digits ∧ (∀ c ∈ rest.head?, CharClass.isDecimal c = false) ∧
        t = digits ++ rest := by
  unfold digits?
  simp only [drop_length_takeWhile]
  constructor
  · intro h
    split at h
    · contradiction
    · rename_i hempty
      obtain ⟨rfl, rfl⟩ := Prod.mk.inj (Option.some.inj h)
      refine ⟨⟨fun hnil => hempty (List.isEmpty_iff.mpr hnil), fun c hc =>
        List.mem_takeWhile_imp hc⟩, fun c hc => ?_, List.takeWhile_append_dropWhile.symm⟩
      have hstop := List.head?_dropWhile_not CharClass.isDecimal t
      rw [Option.mem_def.mp hc] at hstop
      simpa using hstop
  · rintro ⟨⟨hne, hdecimal⟩, hstop, rfl⟩
    have htake : List.takeWhile CharClass.isDecimal (digits ++ rest) = digits :=
      takeWhile_append_stop hdecimal hstop
    have hdrop : List.dropWhile CharClass.isDecimal (digits ++ rest) = rest := by
      rw [← drop_length_takeWhile, htake, List.drop_left]
    rw [htake, hdrop, if_neg (by simpa using hne)]

/-- The digits of the line end where the word for the column begins. -/
theorem not_isDecimal_comma (rest : Text) :
    ∀ c ∈ (", Column: ".toList ++ rest).head?, CharClass.isDecimal c = false := by
  intro c hc
  obtain rfl : ',' = c := Option.some.inj hc
  decide

/-- At the start of a text the place is found that begins it. -/
theorem atStart?_eq_some_iff :
    atStart? t = some mark ↔ mark.before = [] ∧ mark.Begins t := by
  constructor
  · intro h
    simp only [atStart?, Option.bind_eq_bind, Option.bind_eq_some_iff, Option.pure_def,
      Option.some.injEq] at h
    obtain ⟨t₁, h₁, ⟨line, t₂⟩, h₂, t₃, h₃, ⟨column, after⟩, h₄, rfl⟩ := h
    obtain ⟨hline, -, rfl⟩ := digits?_eq_some_iff.mp h₂
    obtain ⟨hcolumn, hends, rfl⟩ := digits?_eq_some_iff.mp h₄
    obtain rfl := afterText?_eq_some_iff.mp h₃
    refine ⟨rfl, ⟨t.takeWhile CharClass.isBlank, ?_, ?_⟩, hline, hcolumn, hends⟩
    · exact List.all_eq_true.mpr fun c hc => List.mem_takeWhile_imp hc
    · rw [← afterText?_eq_some_iff.mp h₁]
      exact List.takeWhile_append_dropWhile.symm
  · rintro ⟨hbefore, ⟨blanks, hblank, rfl⟩, hline, hcolumn, hends⟩
    obtain ⟨before, line, column, after⟩ := mark
    obtain rfl : before = [] := hbefore
    simp only [atStart?, Option.bind_eq_bind, Option.bind_eq_some_iff, Option.pure_def,
      trimStart_append_of_isBlank hblank]
    have hlines := digits?_eq_some_iff.mpr ⟨hline, not_isDecimal_comma (column ++ after), rfl⟩
    have hcolumns := digits?_eq_some_iff.mpr ⟨hcolumn, hends, rfl⟩
    exact ⟨_, afterText?_eq_some_iff.mpr rfl, _, hlines, _, afterText?_eq_some_iff.mpr rfl,
      _, hcolumns, rfl⟩

theorem Begins.withBefore (h : mark.Begins t) (before : Text) :
    { mark with before := before }.Begins t :=
  ⟨h.text, h.line, h.column, h.ends⟩

theorem atStart?_of_begins (h : mark.Begins t) : atStart? t = some { mark with before := [] } :=
  atStart?_eq_some_iff.mpr ⟨rfl, h.withBefore []⟩

theorem not_standsIn_nil : ¬ mark.StandsIn [] := by
  rintro ⟨behind, htext, ⟨blanks, -, rfl⟩, -⟩
  simp at htext

theorem StandsIn.cons (h : mark.StandsIn t) (c : Char) :
    { mark with before := c :: mark.before }.StandsIn (c :: t) := by
  obtain ⟨behind, rfl, hbegins⟩ := h
  exact ⟨behind, rfl, hbegins.withBefore (c :: mark.before)⟩

/-- A place begins a text, or it stands behind its first character. -/
theorem StandsIn.of_cons (h : mark.StandsIn (c :: t)) :
    mark.Begins (c :: t) ∨
      ∃ before, mark.before = c :: before ∧ { mark with before := before }.StandsIn t := by
  obtain ⟨behind, htext, hbegins⟩ := h
  cases hbefore : mark.before with
  | nil =>
      rw [hbefore, List.nil_append] at htext
      rw [htext]
      exact Or.inl hbegins
  | cons e before =>
      rw [hbefore, List.cons_append] at htext
      obtain ⟨rfl, rfl⟩ := List.cons.inj htext
      exact Or.inr ⟨before, rfl, behind, rfl, hbegins.withBefore before⟩

/-- Behind the same text only one place stands. -/
theorem StandsIn.unique (h : mark.StandsIn t) (h' : mark'.StandsIn t)
    (hlength : mark.before.length = mark'.before.length) : mark = mark' := by
  obtain ⟨before, line, column, after⟩ := mark
  obtain ⟨before', line', column', after'⟩ := mark'
  obtain ⟨behind, rfl, hbegins⟩ := h
  obtain ⟨behind', htext, hbegins'⟩ := h'
  obtain ⟨rfl, rfl⟩ := List.append_inj htext hlength
  have hsame := (atStart?_of_begins hbegins).symm.trans (atStart?_of_begins hbegins')
  simp only [Option.some.injEq, mk.injEq, true_and] at hsame
  obtain ⟨rfl, rfl, rfl⟩ := hsame
  rfl

theorem first?_cons (c : Char) (t : Text) :
    first? (c :: t) =
      match atStart? (c :: t) with
      | some mark => some mark
      | none => (first? t).map fun mark => { mark with before := c :: mark.before } := by
  rfl

theorem first?_cons_of_none (h : atStart? (c :: t) = none) :
    first? (c :: t) = (first? t).map fun mark => { mark with before := c :: mark.before } := by
  rw [first?_cons, h]

theorem first?_cons_of_some (h : atStart? (c :: t) = some mark) : first? (c :: t) = some mark := by
  rw [first?_cons, h]

theorem first?_of_begins (h : mark.Begins t) : first? t = some { mark with before := [] } := by
  cases t with
  | nil => exact absurd ⟨[], rfl, h.withBefore []⟩ not_standsIn_nil
  | cons c t => exact first?_cons_of_some (atStart?_of_begins h)

/-- No place is found exactly if none stands in the text. -/
theorem first?_eq_none_iff : first? t = none ↔ ∀ mark : PlaceMark, ¬ mark.StandsIn t := by
  induction t with
  | nil => exact iff_of_true rfl fun mark => not_standsIn_nil
  | cons c t ih =>
      cases hstart : atStart? (c :: t) with
      | some found =>
          obtain ⟨hbefore, hbegins⟩ := atStart?_eq_some_iff.mp hstart
          refine iff_of_false ?_ fun hnone => hnone found ⟨c :: t, by rw [hbefore]; rfl, hbegins⟩
          rw [first?_of_begins hbegins]
          exact Option.some_ne_none _
      | none =>
          rw [first?_cons_of_none hstart, Option.map_eq_none_iff, ih]
          constructor
          · intro hnone mark hmark
            rcases hmark.of_cons with hbegins | ⟨before, -, hmark'⟩
            · rw [atStart?_of_begins hbegins] at hstart
              contradiction
            · exact hnone _ hmark'
          · intro hnone mark hmark
            exact hnone _ (hmark.cons c)

/-- The place that is found is the first one that stands in the text. -/
theorem isFirst_of_first? (h : first? t = some mark) : mark.IsFirst t := by
  induction t generalizing mark with
  | nil => contradiction
  | cons c t ih =>
      cases hstart : atStart? (c :: t) with
      | some found =>
          obtain ⟨-, hbegins⟩ := atStart?_eq_some_iff.mp hstart
          rw [first?_of_begins hbegins] at h
          obtain rfl := Option.some.inj h
          exact ⟨⟨c :: t, rfl, hbegins.withBefore []⟩, fun other _ => Nat.zero_le _⟩
      | none =>
          rw [first?_cons_of_none hstart] at h
          obtain ⟨found, hfound, rfl⟩ := Option.map_eq_some_iff.mp h
          obtain ⟨hstands, hle⟩ := ih hfound
          refine ⟨hstands.cons c, fun other hother => ?_⟩
          rcases hother.of_cons with hbegins | ⟨before, hbefore, hother'⟩
          · rw [atStart?_of_begins hbegins] at hstart
            contradiction
          · rw [hbefore]
            exact Nat.succ_le_succ (hle _ hother')

theorem exists_first? (h : mark.StandsIn t) :
    ∃ found : PlaceMark, first? t = some found ∧ found.IsFirst t := by
  cases hfirst : first? t with
  | none => exact absurd h (first?_eq_none_iff.mp hfirst mark)
  | some found => exact ⟨found, rfl, isFirst_of_first? hfirst⟩

/-! ## A place behind a text -/

def written (p : Position) : Text :=
  " at Line: ".toList ++ (Nat.toDigits 10 p.line ++
    (", Column: ".toList ++ Nat.toDigits 10 p.column))

theorem placed_eq (message : String) (p : Position) :
    Grammar.placed message (some p) = message.toList ++ written p := by
  have hplaced : Grammar.placed message (some p) =
      (message ++ (" at Line: " ++ p.line.repr ++ ", Column: " ++ p.column.repr)).toList := rfl
  unfold written
  simp only [hplaced, String.toList_append, Nat.toList_repr, List.append_assoc]

theorem isNumeral_toDigits (n : Nat) : IsNumeral (Nat.toDigits 10 n) := by
  refine ⟨Nat.toDigits_ne_nil, fun c hc => ?_⟩
  have hdigit : c.isDigit = true := Nat.isDigit_of_mem_toDigits (by decide) (by decide) hc
  have hbounds : 48 ≤ c.toNat ∧ c.toNat ≤ 57 := by
    simpa [Char.isDigit, UInt32.le_iff_toNat_le] using hdigit
  rw [CharClass.isDecimal, if_pos (by omega), hdigit]

theorem number?_toDigits {n : Nat} (h : n < UInt64.size) :
    number? (Nat.toDigits 10 n) = some n := by
  have hdigits : (Nat.toDigits 10 n).all Char.isDigit = true :=
    List.all_eq_true.mpr fun c hc => Nat.isDigit_of_mem_toDigits (by decide) (by decide) hc
  have hvalue : (Nat.toDigits 10 n).foldl (fun n c => n * 10 + (c.toNat - '0'.toNat)) 0 = n := by
    have hchars := Nat.ofDigitChars_toDigits (b := 10) (n := n) (by decide) (by decide)
    rw [Nat.ofDigitChars_eq_foldl] at hchars
    simpa only [Nat.mul_comm 10] using hchars
  simp only [number?, hdigits, hvalue, Bool.true_and, decide_eq_true h, if_true]

theorem position?_toDigits {p : Position} (hline : 0 < p.line) (hcolumn : 0 < p.column)
    (hlines : p.line < UInt64.size) (hcolumns : p.column < UInt64.size) (before after : Text) :
    position? ⟨before, Nat.toDigits 10 p.line, Nat.toDigits 10 p.column, after⟩ = some p := by
  have hnone : ¬ (p.line = 0 ∨ p.column = 0) := by omega
  simp only [position?, number?_toDigits hlines, number?_toDigits hcolumns, Option.bind_eq_bind,
    Option.bind_some, if_neg hnone]

/-- A place that is written behind a text stands there. -/
theorem standsIn_written (d : Text) (p : Position) :
    StandsIn ⟨d, Nat.toDigits 10 p.line, Nat.toDigits 10 p.column, []⟩ (d ++ written p) := by
  refine ⟨written p, rfl, ⟨[' '], rfl, ?_⟩, isNumeral_toDigits p.line,
    isNumeral_toDigits p.column, nofun⟩
  rw [List.append_nil]
  rfl

/-- What stands in a text stands there still when a place is written behind it. -/
theorem StandsIn.append_written (h : mark.StandsIn d) (p : Position) :
    { mark with after := mark.after ++ written p }.StandsIn (d ++ written p) := by
  obtain ⟨behind, rfl, ⟨blanks, hblank, rfl⟩, hline, hcolumn, hends⟩ := h
  refine ⟨_, List.append_assoc _ _ _, ⟨blanks, hblank, ?_⟩, hline, hcolumn, ?_⟩
  · simp only [List.append_assoc]
  · intro c hc
    cases hafter : mark.after with
    | nil =>
        rw [hafter] at hc
        obtain rfl : ' ' = c := Option.some.inj hc
        decide
    | cons e more =>
        rw [hafter] at hc
        exact hends c (by rw [hafter]; exact hc)

/-- What stands behind the first letter of a place, up to its last digit. -/
def words (line column : Text) : Text :=
  "t Line: ".toList ++ (line ++ (", Column: ".toList ++ column))

/-- The letter that begins a place does not come again in it. -/
theorem not_mem_words {line column : Text} (hline : IsNumeral line) (hcolumn : IsNumeral column) :
    'a' ∉ words line column := by
  have hdigits {digits : Text} (h : IsNumeral digits) : 'a' ∉ digits := by
    intro hmem
    exact absurd (h.2 'a' hmem) (by decide)
  unfold words
  simp only [List.mem_append, not_or]
  exact ⟨by decide, hdigits hline, by decide, hdigits hcolumn⟩

theorem getLast?_words (line : Text) {column : Text} (hcolumn : IsNumeral column) :
    ∀ c ∈ (words line column).getLast?, CharClass.isDecimal c = true := by
  obtain ⟨first, c, rfl⟩ := List.eq_nil_or_concat column |>.resolve_left hcolumn.1
  intro e he
  unfold words at he
  rw [List.concat_eq_append, ← List.append_assoc, ← List.append_assoc, ← List.append_assoc,
    List.getLast?_concat] at he
  obtain rfl := Option.some.inj he
  exact hcolumn.2 c (by simp)

/-- The digits of a number are known by where they end. -/
theorem IsNumeral.append_inj {digits' rest' : Text} (h : IsNumeral digits) (h' : IsNumeral digits')
    (hends : ∀ c ∈ rest.head?, CharClass.isDecimal c = false)
    (hends' : ∀ c ∈ rest'.head?, CharClass.isDecimal c = false)
    (heq : digits ++ rest = digits' ++ rest') : digits = digits' ∧ rest = rest' := by
  have hdigits := digits?_eq_some_iff.mpr ⟨h, hends, rfl⟩
  rw [heq, digits?_eq_some_iff.mpr ⟨h', hends', rfl⟩] at hdigits
  obtain ⟨rfl, rfl⟩ := Prod.mk.inj (Option.some.inj hdigits)
  exact ⟨rfl, rfl⟩

/-- The digits of a place are known from its words. -/
theorem words_append_inj {line line' column column' after : Text} (hline : IsNumeral line)
    (hline' : IsNumeral line') (hcolumn : IsNumeral column) (hcolumn' : IsNumeral column')
    (hends : ∀ c ∈ after.head?, CharClass.isDecimal c = false)
    (heq : words line column ++ after = words line' column') :
    line = line' ∧ column = column' ∧ after = [] := by
  unfold words at heq
  simp only [List.append_assoc, List.append_cancel_left_eq] at heq
  obtain ⟨rfl, hrest⟩ :=
    hline.append_inj hline' (not_isDecimal_comma _) (not_isDecimal_comma _) heq
  rw [List.append_cancel_left_eq, ← List.append_nil column'] at hrest
  obtain ⟨rfl, rfl⟩ := hcolumn.append_inj hcolumn' hends (by simp) hrest
  exact ⟨rfl, rfl, rfl⟩

/-- Where a character stands that does not come again is its last place in a text. -/
theorem append_cons_eq_append_cons {u v u' v' : Text} {c : Char} (hv : c ∉ v)
    (heq : u ++ c :: v = u' ++ c :: v') :
    u = u' ∧ v = v' ∨ ∃ between, u = u' ++ c :: between ∧ v' = between ++ c :: v := by
  rcases List.append_eq_append_iff.mp heq with ⟨more, rfl, hmore⟩ | ⟨more, rfl, hmore⟩
  · cases more with
    | nil => exact Or.inl ⟨(List.append_nil u).symm, (List.cons.inj hmore).2⟩
    | cons e more =>
        obtain ⟨-, rfl⟩ := List.cons.inj hmore
        exact absurd (List.mem_append_right more List.mem_cons_self) hv
  · cases more with
    | nil => exact Or.inl ⟨List.append_nil u', (List.cons.inj hmore).2.symm⟩
    | cons e more =>
        obtain ⟨rfl, rfl⟩ := List.cons.inj hmore
        exact Or.inr ⟨more, rfl, rfl⟩

/-- The words of a place do not reach into a place that is written behind a text. -/
theorem exists_of_words_append {line column after between : Text} {p : Position}
    (hline : IsNumeral line) (hcolumn : IsNumeral column)
    (heq : words line column ++ after = between ++ written p) :
    ∃ more, between = words line column ++ more ∧ after = more ++ written p := by
  rcases List.append_eq_append_iff.mp heq with ⟨more, hbetween, hafter⟩ | ⟨more, hwords, hafter⟩
  · exact ⟨more, hbetween, hafter⟩
  · cases more with
    | nil => exact ⟨[], by rw [hwords, List.append_nil, List.append_nil], hafter.symm⟩
    | cons blank more =>
        obtain ⟨rfl, hmore⟩ : blank = ' ' ∧ _ := List.cons.inj hafter.symm
        cases more with
        | nil =>
            have hlast := getLast?_words line hcolumn
            rw [hwords, List.getLast?_concat] at hlast
            exact absurd (hlast ' ' rfl) (by decide)
        | cons letter more =>
            obtain ⟨rfl, -⟩ : letter = 'a' ∧ _ := List.cons.inj hmore
            refine absurd ?_ (not_mem_words hline hcolumn)
            rw [hwords]
            simp

/-- A place that stands in a text with a place written behind it stands in the text, or it is the
one that is written. -/
theorem StandsIn.of_append_written {p : Position} (h : mark.StandsIn (d ++ written p)) :
    (∃ after, mark.after = after ++ written p ∧ { mark with after := after }.StandsIn d) ∨
      ∃ blanks : Text, blanks.isBlank = true ∧ mark.before ++ blanks = d ++ [' '] ∧
        mark.line = Nat.toDigits 10 p.line ∧ mark.column = Nat.toDigits 10 p.column ∧
        mark.after = [] := by
  obtain ⟨behind, htext, ⟨blanks, hblank, rfl⟩, hline, hcolumn, hends⟩ := h
  have hline' := isNumeral_toDigits p.line
  have hcolumn' := isNumeral_toDigits p.column
  have hletters : (d ++ [' ']) ++ 'a' :: words (Nat.toDigits 10 p.line) (Nat.toDigits 10 p.column) =
      (mark.before ++ blanks) ++ 'a' :: (words mark.line mark.column ++ mark.after) := by
    unfold words
    simp only [List.append_assoc]
    exact htext
  rcases append_cons_eq_append_cons (not_mem_words hline' hcolumn') hletters with
    ⟨hbefore, hwords⟩ | ⟨between, hbefore, hwords⟩
  · obtain ⟨hlines, hcolumns, hafter⟩ :=
      words_append_inj hline hline' hcolumn hcolumn' hends hwords.symm
    exact Or.inr ⟨blanks, hblank, hbefore.symm, hlines, hcolumns, hafter⟩
  · left
    obtain ⟨between, rfl, rfl⟩ : ∃ more, between = more ++ [' '] ∧
        d = mark.before ++ blanks ++ 'a' :: more := by
      rcases List.eq_nil_or_concat between with rfl | ⟨more, e, rfl⟩
      · have hlast := (List.append_inj' hbefore rfl).2
        exact absurd (List.head_eq_of_cons_eq hlast) (by decide)
      · rw [List.concat_eq_append, ← List.cons_append, ← List.append_assoc] at hbefore
        obtain ⟨hd, hlast⟩ := List.append_inj' hbefore rfl
        rw [List.concat_eq_append, ← hlast]
        exact ⟨more, rfl, hd⟩
    have hwritten : words mark.line mark.column ++ mark.after = between ++ written p := by
      rw [hwords, List.append_assoc]
      rfl
    obtain ⟨more, rfl, hafter⟩ := exists_of_words_append hline hcolumn hwritten
    refine ⟨more, hafter, _, List.append_assoc _ _ _, ⟨blanks, hblank, ?_⟩, hline, hcolumn, ?_⟩
    · unfold words
      simp only [List.append_assoc]
      rfl
    · intro c hc
      apply hends c
      rw [hafter, List.head?_append, Option.mem_def.mp hc]
      rfl

/-- The first place in a text is the first one still when a place is written behind it. -/
theorem first?_append_written (h : mark.IsFirst d) (p : Position) :
    first? (d ++ written p) = some { mark with after := mark.after ++ written p } := by
  obtain ⟨found, hfirst, hfound⟩ := exists_first? (h.stands.append_written p)
  have hle := hfound.le _ (h.stands.append_written p)
  rw [hfirst]
  rcases hfound.stands.of_append_written with
    ⟨after, hafter, hstands⟩ | ⟨blanks, hblank, hbefore, -⟩
  · obtain rfl := h.stands.unique hstands (Nat.le_antisymm (h.le _ hstands) hle)
    obtain ⟨before, line, column, more⟩ := found
    obtain rfl : more = after ++ written p := hafter
    rfl
  · obtain ⟨behind, rfl, ⟨blanks', -, rfl⟩, -⟩ := h.stands
    rw [List.append_assoc] at hbefore
    have hletter : 'a' ∈ blanks := by
      rcases List.append_eq_append_iff.mp hbefore with ⟨more, -, rfl⟩ | ⟨more, hmore, hblanks⟩
      · simp
      · have hnil : more = [] := by
          have hlength : found.before.length ≤ mark.before.length := hle
          rw [hmore, List.length_append] at hlength
          exact List.eq_nil_of_length_eq_zero (by omega)
        rw [hnil, List.nil_append] at hblanks
        rw [← hblanks]
        simp
    have hblanks := List.all_eq_true.mp hblank 'a' hletter
    exact absurd hblanks (by decide)

/-- A place that is written behind a text without a place is the one that is found. -/
theorem exists_first?_append_written (h : ∀ mark : PlaceMark, ¬ mark.StandsIn d) (p : Position) :
    ∃ before blanks : Text, blanks.isBlank = true ∧ before ++ blanks = d ++ [' '] ∧
      first? (d ++ written p) =
        some ⟨before, Nat.toDigits 10 p.line, Nat.toDigits 10 p.column, []⟩ := by
  obtain ⟨found, hfirst, hfound⟩ := exists_first? (standsIn_written d p)
  rcases hfound.stands.of_append_written with
    ⟨after, -, hstands⟩ | ⟨blanks, hblank, hbefore, hline, hcolumn, hafter⟩
  · exact absurd hstands (h _)
  · obtain ⟨before, line, column, after⟩ := found
    obtain ⟨rfl, rfl, rfl⟩ : line = _ ∧ column = _ ∧ after = _ := ⟨hline, hcolumn, hafter⟩
    exact ⟨before, blanks, hblank, hbefore, hfirst⟩

/-! ## The place of a message -/

/-- The position that the first place in a text spells. -/
def positionIn? (t : Text) : Option Position :=
  (first? t).bind position?

theorem positionIn?_of_none (h : atStart? (c :: t) = none) :
    positionIn? (c :: t) = positionIn? t := by
  unfold positionIn?
  rw [first?_cons_of_none h, Option.bind_map]
  rfl

/-- What stands before a place does not matter for its position, not even a blank. -/
theorem positionIn?_cons (hc : c ≠ 'a') (t : Text) : positionIn? (c :: t) = positionIn? t := by
  cases hstart : atStart? (c :: t) with
  | none => exact positionIn?_of_none hstart
  | some found =>
      have hfound : found.Begins (c :: t) := (atStart?_eq_some_iff.mp hstart).2
      obtain ⟨blanks, hblank, htext⟩ := hfound.text
      have hbehind : found.Begins t := by
        cases blanks with
        | nil => exact absurd (List.cons.inj htext).1 hc
        | cons e blanks =>
            obtain ⟨-, rfl⟩ := List.cons.inj htext
            have hblanks := (Bool.and_eq_true_iff.mp hblank).2
            exact ⟨⟨blanks, hblanks, rfl⟩, hfound.line, hfound.column, hfound.ends⟩
      unfold positionIn?
      rw [first?_of_begins hfound, first?_of_begins hbehind]

theorem positionIn?_append {start : Text} (h : 'a' ∉ start) (t : Text) :
    positionIn? (start ++ t) = positionIn? t := by
  induction start with
  | nil => rfl
  | cons c start ih =>
      rw [List.mem_cons, not_or] at h
      rw [List.cons_append, positionIn?_cons (Ne.symm h.1), ih h.2]

end PlaceMark

namespace SyntaxError

open PlaceMark

/-- What says that a message comes from the grammar holds nothing of a place. -/
theorem place?_refused (message : Text) : (refused message).place? = positionIn? message := by
  have hstart : 'a' ∉ "sql p".toList := by decide
  have hend : 'a' ∉ "rser error: ".toList := by decide
  have hnone : atStart? ('a' :: ("rser error: ".toList ++ message)) = none := rfl
  calc (refused message).place?
      = positionIn? ("sql p".toList ++ ('a' :: ("rser error: ".toList ++ message))) := rfl
    _ = positionIn? ('a' :: ("rser error: ".toList ++ message)) := positionIn?_append hstart _
    _ = positionIn? ("rser error: ".toList ++ message) := positionIn?_of_none hnone
    _ = positionIn? message := positionIn?_append hend message

/-- A message whose text holds no place is read back: the place that is written behind it, and the
text without blanks around it. If the text holds places, the first of them is taken for that of the
message and cut out of the text. -/
theorem place?_placed (message : String) (p : Position) (hline : 0 < p.line)
    (hcolumn : 0 < p.column) (hlines : p.line < UInt64.size) (hcolumns : p.column < UInt64.size) :
    ((∀ mark : PlaceMark, ¬ mark.StandsIn message.toList) →
      (refused (Grammar.placed message (some p))).place? = some p ∧
        (refused (Grammar.placed message (some p))).detail = Text.trim message.toList) ∧
      ∀ mark : PlaceMark, mark.IsFirst message.toList →
        (refused (Grammar.placed message (some p))).place? = mark.position? ∧
          (refused (Grammar.placed message (some p))).detail =
            Text.trim (mark.before ++ (mark.after ++ written p)) := by
  rw [place?_refused, placed_eq]
  constructor
  · intro hnone
    obtain ⟨before, blanks, hblank, hbefore, hfirst⟩ := exists_first?_append_written hnone p
    constructor
    · rw [positionIn?, hfirst]
      exact position?_toDigits hline hcolumn hlines hcolumns before []
    · have hspace : Text.isBlank [' '] = true := by decide
      simp only [detail, hfirst, List.append_nil]
      rw [← Text.trim_append_of_isBlank before hblank, hbefore,
        Text.trim_append_of_isBlank message.toList hspace]
  · intro mark hmark
    have hfirst := first?_append_written hmark p
    constructor
    · rw [positionIn?, hfirst]
      rfl
    · simp only [detail, hfirst]

theorem place?_placed_plain :
    let message := "Expected: end of statement, found: x"
    let e := refused (Grammar.placed message (some ⟨1, 19⟩))
    e.place? = some ⟨1, 19⟩ ∧ e.detail = message.toList :=
  (place?_placed "Expected: end of statement, found: x" ⟨1, 19⟩ (by decide) (by decide) (by decide)
    (by decide)).1 (first?_eq_none_iff.mp (by decide +kernel))

/-- A literal that is quoted in a message is taken for the place of the message. -/
theorem place?_of_quoted_literal :
    let t := "SELECT 1 FROM t u 'at Line: 9, Column: 9'".toList
    let message := "Expected: end of statement, found: 'at Line: 9, Column: 9'"
    let e := refused (Grammar.placed message (some ⟨1, 19⟩))
    (match (Ladder.ofSettings standardParser {}).readStrictly t with
      | .ok _ => none
      | .error e => some e) = some e ∧
      e.place? = some ⟨9, 9⟩ ∧
      e.detail = "Expected: end of statement, found: '' at Line: 1, Column: 19".toList ∧
      ¬ ∀ (message : String) (p : Position), 0 < p.line → 0 < p.column → p.line < UInt64.size →
        p.column < UInt64.size → (refused (Grammar.placed message (some p))).place? = some p ∧
          (refused (Grammar.placed message (some p))).detail = Text.trim message.toList := by
  have hquoted : (refused (Grammar.placed
      "Expected: end of statement, found: 'at Line: 9, Column: 9'" (some ⟨1, 19⟩))).place? =
        some ⟨9, 9⟩ := by decide +kernel
  refine ⟨by decide +kernel, hquoted, by decide +kernel, fun h => ?_⟩
  have hplace := (h "Expected: end of statement, found: 'at Line: 9, Column: 9'" ⟨1, 19⟩
    (by decide) (by decide) (by decide) (by decide)).1
  exact absurd (hquoted.symm.trans hplace) (by decide)

end SyntaxError

end SqlInsight
