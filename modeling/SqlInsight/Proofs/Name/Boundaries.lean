/-
What requoting does to the boundaries of names. It writes a text stroke by stroke: characters that
it copies, bracketed names that it writes anew, and the dots of pairs. A name that is written bare
loses the brackets that kept it apart from what stands next to it. So the names in what is written
are those that would stand there with blanks around every bare name, exactly if in the text no such
name touches a character of a name or another such name.
-/
import SqlInsight.Proofs.Name.Requoting
import SqlInsight.Proofs.Text.Names

namespace SqlInsight

namespace CharClass

theorem isName_of_isAlphabetic {c : Char} (h : isAlphabetic c = true) : isName c = true := by
  have halphanumeric : isAlphanumeric c = true := by
    unfold isAlphabetic at h
    unfold isAlphanumeric
    split
    · rename_i hascii
      rw [if_pos hascii] at h
      simp [Char.isAlphanum, h]
    · rename_i hascii
      rw [if_neg hascii] at h
      simp [isAlphabetic, hascii, h]
  simp [isName, halphanumeric]

end CharClass

namespace Name

open Text

/-- What stands bare holds characters of names only. -/
theorem isName_of_not_needsQuoting {name : Text} (h : needsQuoting name = false) :
    name ≠ [] ∧ ∀ c ∈ name, CharClass.isName c = true := by
  cases name with
  | nil => contradiction
  | cons first rest =>
      simp only [needsQuoting, Bool.or_eq_false_iff, Bool.not_eq_false', Bool.or_eq_true,
        beq_iff_eq, List.all_eq_true] at h
      obtain ⟨⟨hfirst, hrest⟩, -⟩ := h
      refine ⟨List.cons_ne_nil first rest, ?_⟩
      intro c hc
      rcases List.mem_cons.mp hc with rfl | hmem
      · rcases hfirst with halphabetic | rfl
        · exact CharClass.isName_of_isAlphabetic halphabetic
        · decide +kernel
      · exact hrest c hmem

/-- A stroke of requoting: a character that is copied, a bracketed name that is written anew, or the
dot of a pair, which is written without the blanks around it. -/
inductive Stroke where
  | copied (c : Char)
  | name (inner : Text)
  | dot (gap : Text)
deriving Repr, DecidableEq

namespace Stroke

/-- The stretch of the text that a stroke stands for. -/
def source : Stroke → Text
  | copied c => [c]
  | name inner => '[' :: inner ++ [']']
  | dot gap => gap

def written (quote : Char) : Stroke → Text
  | copied c => [c]
  | name inner => render quote inner
  | dot _ => ['.']

/-- Whether a stroke writes a name without quotes. -/
def isBare : Stroke → Bool
  | name inner => !needsQuoting (undouble ']' inner)
  | copied _ | dot _ => false

/-- What a stroke would write with blanks around every bare name. -/
def spaced (quote : Char) (x : Stroke) : Text :=
  if x.isBare then ' ' :: x.written quote ++ [' '] else x.written quote

/-- Whether a stroke begins and ends with a character of a name: a copied one is such a character,
or a name stands bare. Quotes do not count unless they are such characters themselves. -/
def isNamelike (quote : Char) : Stroke → Bool
  | copied c => CharClass.isName c
  | name inner => isBare (name inner) || CharClass.isName quote
  | dot _ => false

end Stroke

/-- No bare name touches a character of a name or another bare name. -/
def Apart (quote : Char) (strokes : List Stroke) : Prop :=
  strokes.IsChain fun x y =>
    (x.isBare || y.isBare) = true → (x.isNamelike quote && y.isNamelike quote) = false

section Strokes

variable {quote : Char} {x : Stroke} {strokes : List Stroke}

theorem isName_dot : CharClass.isName '.' = false := by decide +kernel

theorem written_of_isBare (quote : Char) (h : x.isBare = true) :
    x.written quote ≠ [] ∧ ∀ c ∈ x.written quote, CharClass.isName c = true := by
  cases x with
  | copied c => contradiction
  | dot gap => contradiction
  | name inner =>
      have hbare : needsQuoting (undouble ']' inner) = false := by simpa [Stroke.isBare] using h
      have hwritten : (Stroke.name inner).written quote = undouble ']' inner := by
        rw [Stroke.written, render, hbare]
        rfl
      rw [hwritten]
      exact isName_of_not_needsQuoting hbare

theorem written_ne_nil (quote : Char) (x : Stroke) : x.written quote ≠ [] := by
  cases x with
  | copied c => exact List.cons_ne_nil c []
  | dot gap => exact List.cons_ne_nil '.' []
  | name inner =>
      by_cases hbare : (Stroke.name inner).isBare = true
      · exact (written_of_isBare quote hbare).1
      · have hquoted : needsQuoting (undouble ']' inner) = true := by
          simpa [Stroke.isBare] using hbare
        simp [Stroke.written, render, hquoted, quoted]

/-- A stroke begins and ends with a character of a name, or it does neither. -/
theorem beginsName_written (quote : Char) (x : Stroke) :
    beginsName (x.written quote) = x.isNamelike quote ∧
      endsName (x.written quote) = x.isNamelike quote := by
  cases x with
  | copied c => exact ⟨rfl, rfl⟩
  | dot gap => exact ⟨isName_dot, isName_dot⟩
  | name inner =>
      by_cases hbare : (Stroke.name inner).isBare = true
      · obtain ⟨hne, hall⟩ := written_of_isBare quote hbare
        have hnamelike : (Stroke.name inner).isNamelike quote = true := by
          simp [Stroke.isNamelike, hbare]
        rw [hnamelike]
        exact ⟨beginsName_of_forall hne hall, endsName_of_forall hne hall⟩
      · have hquoted : needsQuoting (undouble ']' inner) = true := by
          simpa [Stroke.isBare] using hbare
        have hwritten : (Stroke.name inner).written quote =
            quote :: double quote (undouble ']' inner) ++ [quote] := by
          rw [Stroke.written, render, if_pos hquoted, quoted]
        have hnamelike : (Stroke.name inner).isNamelike quote = CharClass.isName quote := by
          simp [Stroke.isNamelike, hbare]
        rw [hwritten, hnamelike]
        exact ⟨rfl, endsName_append (List.cons_ne_nil quote [])⟩

/-- With blanks around it a bare name is apart from everything. -/
theorem spaced_of_isBare (h : x.isBare = true) (quote : Char) :
    names (x.spaced quote) = names (x.written quote) ∧ beginsName (x.spaced quote) = false ∧
      endsName (x.spaced quote) = false := by
  rw [Stroke.spaced, if_pos h]
  exact names_blank_around _

theorem spaced_of_not_isBare (h : x.isBare = false) (quote : Char) :
    x.spaced quote = x.written quote := by
  simp [Stroke.spaced, h]

/-- Whether strokes written one after another begin with a character of a name. -/
theorem beginsName_flatMap_written (quote : Char) (x : Stroke) (strokes : List Stroke) :
    beginsName ((x :: strokes).flatMap (Stroke.written quote)) = x.isNamelike quote := by
  rw [List.flatMap_cons, beginsName_append (written_ne_nil quote x), (beginsName_written quote x).1]

theorem beginsName_flatMap_spaced (quote : Char) (x : Stroke) (strokes : List Stroke) :
    beginsName ((x :: strokes).flatMap (Stroke.spaced quote)) =
      (x.isNamelike quote && !x.isBare) := by
  rw [List.flatMap_cons]
  cases hbare : x.isBare with
  | true =>
      have hbegins := (spaced_of_isBare hbare quote).2.1
      have hne : x.spaced quote ≠ [] := by
        rw [Stroke.spaced, if_pos hbare]
        exact List.cons_ne_nil ' ' _
      rw [beginsName_append hne, hbegins, Bool.not_true, Bool.and_false]
  | false =>
      rw [spaced_of_not_isBare hbare, beginsName_append (written_ne_nil quote x),
        (beginsName_written quote x).1, Bool.not_false, Bool.and_true]

theorem names_spaced (quote : Char) (x : Stroke) :
    names (x.spaced quote) = names (x.written quote) := by
  cases hbare : x.isBare with
  | true => exact (spaced_of_isBare hbare quote).1
  | false => rw [spaced_of_not_isBare hbare]

/-- No name goes on across the seam of two strokes one of which is a bare name with blanks around
it. -/
theorem seam_spaced {y : Stroke} (h : (x.isBare || y.isBare) = true) (quote : Char)
    (strokes : List Stroke) :
    (endsName (x.spaced quote) && beginsName ((y :: strokes).flatMap (Stroke.spaced quote))) =
      false := by
  rw [beginsName_flatMap_spaced]
  cases hx : x.isBare with
  | true => rw [(spaced_of_isBare hx quote).2.2, Bool.false_and]
  | false =>
      have hy : y.isBare = true := by simpa [hx] using h
      rw [hy, Bool.not_true, Bool.and_false, Bool.and_false]

/-- Blanks around the bare names make no difference where there are none. -/
theorem seam_spaced_of_not_isBare {y : Stroke} (hx : x.isBare = false) (hy : y.isBare = false)
    (quote : Char) (strokes : List Stroke) :
    x.spaced quote = x.written quote ∧
      beginsName ((y :: strokes).flatMap (Stroke.spaced quote)) =
        beginsName ((y :: strokes).flatMap (Stroke.written quote)) := by
  refine ⟨spaced_of_not_isBare hx quote, ?_⟩
  rw [beginsName_flatMap_spaced, beginsName_flatMap_written, hy, Bool.not_false, Bool.and_true]

/-- Names that are apart stay the same with blanks around the bare ones. -/
theorem Apart.names_eq (h : Apart quote strokes) :
    names (strokes.flatMap (Stroke.written quote)) =
      names (strokes.flatMap (Stroke.spaced quote)) := by
  induction strokes with
  | nil => rfl
  | cons x rest ih =>
      cases rest with
      | nil =>
          rw [List.flatMap_singleton, List.flatMap_singleton, names_spaced]
      | cons y rest =>
          obtain ⟨hseam, hrest⟩ := List.isChain_cons_cons.mp h
          rw [List.flatMap_cons, List.flatMap_cons (f := Stroke.spaced quote)]
          cases hbare : x.isBare || y.isBare with
          | true =>
              have hwritten := hseam hbare
              rw [← beginsName_flatMap_written quote y rest, ← (beginsName_written quote x).2]
                at hwritten
              rw [names_append hwritten, names_append (seam_spaced hbare quote rest), ih hrest,
                names_spaced]
          | false =>
              obtain ⟨hx, hy⟩ := Bool.or_eq_false_iff.mp hbare
              obtain ⟨hspaced, hbegins⟩ := seam_spaced_of_not_isBare hx hy quote rest
              rw [hspaced]
              exact names_append_congr hbegins.symm (ih hrest) _

/-- How many times a bare name touches a character of a name or another bare name. -/
def joints (quote : Char) : List Stroke → Nat
  | x :: y :: rest =>
      (if (x.isBare || y.isBare) && (x.isNamelike quote && y.isNamelike quote) then 1 else 0)
        + joints quote (y :: rest)
  | _ => 0

theorem joints_eq_zero_iff : joints quote strokes = 0 ↔ Apart quote strokes := by
  induction strokes with
  | nil => exact iff_of_true rfl .nil
  | cons x rest ih =>
      cases rest with
      | nil => exact iff_of_true rfl (.singleton x)
      | cons y rest =>
          rw [joints, Nat.add_eq_zero_iff, ih, Apart, Apart, List.isChain_cons_cons]
          apply and_congr_left'
          cases x.isBare || y.isBare <;> cases x.isNamelike quote && y.isNamelike quote <;> simp

/-- Every joint costs a name. -/
theorem length_names_spaced (quote : Char) (strokes : List Stroke) :
    (names (strokes.flatMap (Stroke.spaced quote))).length =
      (names (strokes.flatMap (Stroke.written quote))).length + joints quote strokes := by
  induction strokes with
  | nil => rfl
  | cons x rest ih =>
      cases rest with
      | nil =>
          rw [List.flatMap_singleton, List.flatMap_singleton, names_spaced]
          rfl
      | cons y rest =>
          have hwritten := length_names_append (x.written quote)
            ((y :: rest).flatMap (Stroke.written quote))
          have hspaced := length_names_append (x.spaced quote)
            ((y :: rest).flatMap (Stroke.spaced quote))
          rw [beginsName_flatMap_written, (beginsName_written quote x).2] at hwritten
          rw [List.flatMap_cons, List.flatMap_cons (f := Stroke.written quote), joints]
          cases hbare : x.isBare || y.isBare with
          | true =>
              rw [seam_spaced hbare quote rest, names_spaced, ih] at hspaced
              rw [Bool.true_and]
              simp only [Bool.false_eq_true, ↓reduceIte] at hspaced
              omega
          | false =>
              obtain ⟨hx, hy⟩ := Bool.or_eq_false_iff.mp hbare
              obtain ⟨hsame, hbegins⟩ := seam_spaced_of_not_isBare hx hy quote rest
              rw [hsame, hbegins, beginsName_flatMap_written, (beginsName_written quote x).2, ih]
                at hspaced
              rw [hsame, Bool.false_and]
              simp only [Bool.false_eq_true, ↓reduceIte]
              omega

/-- The names that strokes write are those with blanks around the bare ones, exactly if these are
apart. -/
theorem names_eq_iff (quote : Char) (strokes : List Stroke) :
    names (strokes.flatMap (Stroke.written quote)) =
        names (strokes.flatMap (Stroke.spaced quote)) ↔ Apart quote strokes := by
  constructor
  · intro hnames
    have hlength := length_names_spaced quote strokes
    rw [← hnames] at hlength
    apply joints_eq_zero_iff.mp
    omega
  · exact Apart.names_eq

end Strokes

section Requoting

variable {t inner more : Marked}

/-- What a split at a closing bracket leaves out is that bracket. -/
theorem exists_of_closeBracket {view : Char × Region → Char}
    (h : closeBracket view t = some (inner, more)) :
    ∃ c, t = inner ++ c :: more ∧ view c = ']' := by
  fun_induction closeBracket view t generalizing inner with
  | case1 => contradiction
  | case2 c hc =>
      obtain ⟨rfl, rfl⟩ := Prod.mk.inj (Option.some.inj h)
      exact ⟨c, rfl, hc⟩
  | case3 c hc => contradiction
  | case4 c d rest hc hd ih =>
      obtain ⟨⟨i, m⟩, hi, he⟩ := Option.map_eq_some_iff.mp h
      obtain ⟨rfl, rfl⟩ := Prod.mk.inj he
      obtain ⟨x, rfl, hx⟩ := ih hi
      exact ⟨x, rfl, hx⟩
  | case5 c d rest hc hd =>
      obtain ⟨rfl, rfl⟩ := Prod.mk.inj (Option.some.inj h)
      exact ⟨c, rfl, hc⟩
  | case6 c d rest hc ih =>
      obtain ⟨⟨i, m⟩, hi, he⟩ := Option.map_eq_some_iff.mp h
      obtain ⟨rfl, rfl⟩ := Prod.mk.inj he
      obtain ⟨x, hrest, hx⟩ := ih hi
      exact ⟨x, by rw [hrest, List.cons_append], hx⟩

theorem exists_of_closeBracketAnyhow {view : Char × Region → Char}
    (h : closeBracketAnyhow view t = some (inner, more)) :
    ∃ c, t = inner ++ c :: more ∧ view c = ']' := by
  fun_induction closeBracketAnyhow view t generalizing inner more with
  | case1 => contradiction
  | case2 c hc =>
      obtain ⟨rfl, rfl⟩ := Prod.mk.inj (Option.some.inj h)
      exact ⟨c, rfl, hc⟩
  | case3 c hc => contradiction
  | case4 c d rest hc hd i m hi ih =>
      obtain ⟨rfl, rfl⟩ := Prod.mk.inj (Option.some.inj h)
      obtain ⟨x, rfl, hx⟩ := ih hi
      exact ⟨x, rfl, hx⟩
  | case5 c d rest hc hd hi ih =>
      obtain ⟨rfl, rfl⟩ := Prod.mk.inj (Option.some.inj h)
      exact ⟨c, rfl, hc⟩
  | case6 c d rest hc hd =>
      obtain ⟨rfl, rfl⟩ := Prod.mk.inj (Option.some.inj h)
      exact ⟨c, rfl, hc⟩
  | case7 c d rest hc ih =>
      obtain ⟨⟨i, m⟩, hi, he⟩ := Option.map_eq_some_iff.mp h
      obtain ⟨rfl, rfl⟩ := Prod.mk.inj he
      obtain ⟨x, hrest, hx⟩ := ih hi
      exact ⟨x, by rw [hrest, List.cons_append], hx⟩

theorem eq_of_shown {c : Char × Region} {d : Char} (hd : CharClass.isBlank d = false)
    (h : shown c = d) : c.1 = d := by
  unfold shown at h
  split_ifs at h with hmasked hline
  · subst h
    contradiction
  · subst h
    contradiction
  · exact h

/-- A bracketed name that was read stands between an opening and a closing bracket. -/
theorem exists_of_bracketed? {close : Marked → Option (Marked × Marked)}
    (hclose : ∀ {t inner more : Marked}, close t = some (inner, more) →
      ∃ c, t = inner ++ c :: more ∧ shown c = ']')
    (h : bracketed? close t = some (inner, more)) :
    ∃ o c, t = o :: inner ++ c :: more ∧ o.1 = '[' ∧ c.1 = ']' := by
  unfold bracketed? at h
  split at h
  · contradiction
  · rename_i o rest
    split_ifs at h with ho
    split at h
    · rename_i hsome
      split_ifs at h
      obtain ⟨rfl, rfl⟩ := Prod.mk.inj (Option.some.inj h)
      obtain ⟨c, rfl, hc⟩ := hclose hsome
      exact ⟨o, c, rfl, eq_of_shown (by decide +kernel) ho, eq_of_shown (by decide +kernel) hc⟩
    · contradiction

/-- The names of a pair that was read stand between brackets, and there is a gap between them. -/
theorem exists_of_bracketedPair? {first second : Marked}
    (h : bracketedPair? t = some (first, second, more)) :
    ∃ o c gap o' c', t = o :: first ++ c :: (gap ++ o' :: second ++ c' :: more) ∧ o.1 = '[' ∧
      c.1 = ']' ∧ o'.1 = '[' ∧ c'.1 = ']' := by
  unfold bracketedPair? at h
  split at h
  · contradiction
  · rename_i first' behind hfirst
    obtain ⟨o, c, rfl, ho, hc⟩ := exists_of_bracketed? exists_of_closeBracket hfirst
    split at h
    · contradiction
    · rename_i dot rest hskip
      split_ifs at h
      obtain ⟨⟨second', more'⟩, hsecond, he⟩ := Option.map_eq_some_iff.mp h
      obtain ⟨rfl, hpair⟩ := Prod.mk.inj he
      obtain ⟨rfl, rfl⟩ := Prod.mk.inj hpair
      obtain ⟨o', c', hrest, ho', hc'⟩ :=
        exists_of_bracketed? exists_of_closeBracketAnyhow hsecond
      have hbehind : behind = behind.takeWhile (fun x => CharClass.isBlank (shown x)) ++
          dot :: rest := by
        rw [← hskip]
        exact List.takeWhile_append_dropWhile.symm
      have hinside : rest = rest.takeWhile (fun x => CharClass.isBlank (shown x)) ++
          (o' :: second' ++ c' :: more') := by
        rw [← hrest]
        exact List.takeWhile_append_dropWhile.symm
      refine ⟨o, c, behind.takeWhile (fun x => CharClass.isBlank (shown x)) ++
        dot :: rest.takeWhile (fun x => CharClass.isBlank (shown x)), o', c', ?_, ho, hc, ho', hc'⟩
      conv_lhs => rw [hbehind, hinside]
      simp

/-- The strokes in which every bracketed name of a marked text is requoted. -/
def strokesOf (t : Marked) : List Stroke :=
  match t with
  | [] => []
  | c :: rest =>
      if shown c = '[' then
        match h : closeBracket Prod.fst rest with
        | none => (Marked.text (c :: rest)).map .copied
        | some (inner, more) =>
            have := closeBracket_length h
            .name (Marked.text inner) :: strokesOf more
      else .copied c.1 :: strokesOf rest
termination_by t.length
decreasing_by
  · simp only [List.length_cons]
    omega
  · simp

/-- What stands between the closing bracket of the first name of a pair and the opening one of the
second. -/
def gapOf (t first second more : Marked) : Text :=
  Marked.text ((t.drop (first.length + 2)).take
    (t.length - (first.length + second.length + more.length + 4)))

/-- The strokes in which the dotted pairs of bracketed names of a marked text are requoted. -/
def pairStrokesOf (t : Marked) : List Stroke :=
  match h : bracketedPair? t with
  | some (first, second, more) =>
      have := bracketedPair?_length h
      .name (Marked.text first) :: .dot (gapOf t first second more)
        :: .name (Marked.text second) :: pairStrokesOf more
  | none =>
      match t with
      | [] => []
      | c :: rest => .copied c.1 :: pairStrokesOf rest
termination_by t.length
decreasing_by
  · assumption
  · simp

/-- The strokes are those of a text that is requoted: one after another they stand for the text, and
what they write is what requoting gives. The names in it are those with blanks around every bare
name, exactly if no bare name touches a character of a name or another bare name. -/
structure Requotes (quote : Char) (t out : Text) (strokes : List Stroke) : Prop where
  source : strokes.flatMap Stroke.source = t
  written : strokes.flatMap (Stroke.written quote) = out
  names_iff : names out = names (strokes.flatMap (Stroke.spaced quote)) ↔ Apart quote strokes

theorem Requotes.of_written {quote : Char} {source out : Text} {strokes : List Stroke}
    (hsource : strokes.flatMap Stroke.source = source)
    (hwritten : strokes.flatMap (Stroke.written quote) = out) :
    Requotes quote source out strokes := by
  refine ⟨hsource, hwritten, ?_⟩
  rw [← hwritten]
  exact names_eq_iff quote strokes

theorem flatMap_copied (quote : Char) (t : Text) :
    (t.map Stroke.copied).flatMap Stroke.source = t ∧
      (t.map Stroke.copied).flatMap (Stroke.written quote) = t := by
  rw [List.flatMap_map, List.flatMap_map]
  exact ⟨List.flatMap_singleton' t, List.flatMap_singleton' t⟩

theorem strokesOf_spec (quote : Char) (t : Marked) :
    (strokesOf t).flatMap Stroke.source = t.text ∧
      (strokesOf t).flatMap (Stroke.written quote) = requoteMarked quote t := by
  fun_induction strokesOf t with
  | case1 => exact ⟨rfl, by rw [requoteMarked]; rfl⟩
  | case2 c rest hc hnone =>
      rw [requoteMarked_of_none quote hc hnone]
      exact flatMap_copied quote _
  | case3 c rest hc inner more hsome _ ih =>
      obtain ⟨x, rfl, hx⟩ := exists_of_closeBracket hsome
      have hopen : c.1 = '[' := eq_of_shown (by decide +kernel) hc
      rw [requoteMarked_of_some quote hc hsome, List.flatMap_cons, List.flatMap_cons, ih.1, ih.2]
      exact ⟨by simp [Stroke.source, Marked.text, hopen, hx], rfl⟩
  | case4 c rest hc ih =>
      rw [requoteMarked_cons quote hc, List.flatMap_cons, List.flatMap_cons, ih.1, ih.2]
      exact ⟨rfl, rfl⟩

theorem requotePairsMarked_of_some (quote : Char) {first second : Marked}
    (h : bracketedPair? t = some (first, second, more)) :
    requotePairsMarked quote t =
      render quote first.text ++ '.' :: render quote second.text ++
        requotePairsMarked quote more := by
  rw [requotePairsMarked]
  split
  · rename_i hsome
    rw [h] at hsome
    obtain ⟨rfl, hpair⟩ := Prod.mk.inj (Option.some.inj hsome)
    obtain ⟨rfl, rfl⟩ := Prod.mk.inj hpair
    rfl
  · rename_i hnone
    rw [h] at hnone
    contradiction

theorem requotePairsMarked_cons (quote : Char) {c : Char × Region} {rest : Marked}
    (h : bracketedPair? (c :: rest) = none) :
    requotePairsMarked quote (c :: rest) = c.1 :: requotePairsMarked quote rest := by
  rw [requotePairsMarked]
  split
  · rename_i hsome
    rw [h] at hsome
    contradiction
  · rfl

/-- The gap of a pair is what its names leave between their brackets. -/
theorem source_gapOf {first second : Marked} (h : bracketedPair? t = some (first, second, more)) :
    '[' :: first.text ++ ']' :: (gapOf t first second more ++ '[' :: second.text ++
      ']' :: more.text) = t.text := by
  obtain ⟨o, c, gap, o', c', rfl, ho, hc, ho', hc'⟩ := exists_of_bracketedPair? h
  have hdrop : (o :: first ++ c :: (gap ++ o' :: second ++ c' :: more)).drop (first.length + 2) =
      gap ++ (o' :: second ++ c' :: more) := by
    have hcut : o :: first ++ c :: (gap ++ o' :: second ++ c' :: more) =
        (o :: first ++ [c]) ++ (gap ++ (o' :: second ++ c' :: more)) := by simp
    rw [hcut]
    exact List.drop_left' (by simp)
  have hlength : (o :: first ++ c :: (gap ++ o' :: second ++ c' :: more)).length -
      (first.length + second.length + more.length + 4) = gap.length := by
    simp only [List.length_cons, List.length_append]
    omega
  have hgap : gapOf (o :: first ++ c :: (gap ++ o' :: second ++ c' :: more)) first second more =
      Marked.text gap := by
    rw [gapOf, hlength, hdrop, List.take_left]
  rw [hgap]
  simp [Marked.text, ho, hc, ho', hc']

theorem pairStrokesOf_spec (quote : Char) (t : Marked) :
    (pairStrokesOf t).flatMap Stroke.source = t.text ∧
      (pairStrokesOf t).flatMap (Stroke.written quote) = requotePairsMarked quote t := by
  fun_induction pairStrokesOf t with
  | case1 t first second more hpair _ ih =>
      obtain ⟨hsource, hwritten⟩ := ih
      rw [requotePairsMarked_of_some quote hpair, ← source_gapOf hpair, ← hsource, ← hwritten]
      exact ⟨by simp [Stroke.source], by simp [Stroke.written]⟩
  | case2 hnone => exact ⟨rfl, by rw [requotePairsMarked]; rfl⟩
  | case3 c rest hnone ih =>
      rw [requotePairsMarked_cons quote hnone, List.flatMap_cons, List.flatMap_cons, ih.1, ih.2]
      exact ⟨rfl, rfl⟩

theorem strokesOf_append {plain : Marked} (h : ∀ c ∈ plain, shown c ≠ '[') (rest : Marked) :
    strokesOf (plain ++ rest) = plain.text.map .copied ++ strokesOf rest := by
  induction plain with
  | nil => rfl
  | cons c more ih =>
      have hrest := ih fun d hd => h d (List.mem_cons_of_mem c hd)
      rw [List.cons_append, strokesOf, if_neg (h c List.mem_cons_self), hrest]
      rfl

end Requoting

/-- Requoting keeps names apart as far as the text does. It writes a text in strokes, and the names
in what it writes are those with blanks around the bare ones, exactly if in the text no bracketed
name that is written bare stands next to a character of a name or to another such name. That holds
of the requoting of all bracketed names and of that of the dotted pairs. -/
theorem names_kept_iff_apart (quote : Char) (t : Text) :
    Requotes quote t (requoteAll quote t) (strokesOf t.regions) ∧
      Requotes quote t (requotePairs quote t) (pairStrokesOf t.regions) := by
  obtain ⟨hsource, hwritten⟩ := strokesOf_spec quote t.regions
  obtain ⟨hpairSource, hpairWritten⟩ := pairStrokesOf_spec quote t.regions
  exact ⟨.of_written (hsource.trans (map_fst_regions t)) hwritten,
    .of_written (hpairSource.trans (map_fst_regions t)) hpairWritten⟩

/-- The brackets kept a table and its alias apart, and requoting makes one name of them. -/
theorem names_joined_behind_table :
    let t : Text := "SELECT Id FROM Users[u]".toList
    requoteAll '"' t = "SELECT Id FROM Usersu".toList ∧
      names (requoteAll '"' t) = ["SELECT", "Id", "FROM", "Usersu"].map String.toList ∧
      names ((strokesOf t.regions).flatMap (Stroke.spaced '"')) =
        ["SELECT", "Id", "FROM", "Users", "u"].map String.toList := by
  intro t
  have hregions : t.regions = regions "SELECT Id FROM Users".toList ++
      [('[', .bracketed), ('u', .bracketed), (']', .bracketed)] := by decide +kernel
  have hlast : strokesOf [('[', .bracketed), ('u', .bracketed), (']', .bracketed)] =
      [.name ['u']] := by
    rw [strokesOf, if_pos shown_bracket]
    simp [closeBracket, Marked.text, strokesOf]
  have hstrokes : strokesOf t.regions =
      "SELECT Id FROM Users".toList.map .copied ++ [.name ['u']] := by
    rw [hregions, strokesOf_append (by decide +kernel), hlast, Marked.text, map_fst_regions]
  have hrequoted : requoteAll '"' t = "SELECT Id FROM Usersu".toList := by
    rw [requoteAll, ← (strokesOf_spec '"' t.regions).2, hstrokes]
    decide +kernel
  refine ⟨hrequoted, ?_, ?_⟩
  · rw [hrequoted]
    decide +kernel
  · rw [hstrokes]
    decide +kernel

end Name

end SqlInsight
