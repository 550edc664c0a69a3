/-
Strings, and arrays of strings, that are written and read back. Between double quotes every
character is read back from the way it is written; between single quotes those that stand for
themselves are. In a string of several lines a run of quotes is read at once, up to the closing
ones: so what is read of a text is told together with the quotes of a run that stands before it. As
a value a string is told from any other by the quote that it begins with; and of an array each item
is read up to the comma behind it, or up to the bracket if it is the only one.
-/
import SqlInsight.Proofs.Text.Search
import SqlInsight.Toml.Printer

namespace SqlInsight.Toml

theorem withFront_some (front inner rest : Text) :
    withFront front (some (inner, rest)) = some (front ++ inner, rest) := rfl

/-- A character that is written as a code point is read back. -/
theorem codePoint?_upperHexDigit {c : Char} (h : c.toNat < 128) (rest : Text) :
    codePoint? 4 ('0' :: '0' :: upperHexDigit (c.toNat / 16) :: upperHexDigit (c.toNat % 16) ::
      rest) = some (c, rest) := by
  have hdigits : ∀ n < 128,
      Text.ofDigits 16 ['0', '0', upperHexDigit (n / 16), upperHexDigit (n % 16)] = n ∧
        ['0', '0', upperHexDigit (n / 16), upperHexDigit (n % 16)].all (Text.isDigitIn 16) = true ∧
        n.isValidChar := by
    decide +kernel
  obtain ⟨hvalue, hall, hvalid⟩ := hdigits c.toNat h
  have hchar : Char.ofNat c.toNat = c := Char.ofNat_toNat c
  simp only [codePoint?, List.take_succ_cons, List.take_zero, hvalue, hall, hvalid, hchar,
    List.length_cons, List.length_nil, List.drop_succ_cons, List.drop_zero, and_self, ↓reduceIte]

/-- A character is written between double quotes as itself or as an escape. -/
theorem escapeChar_spec (severalLines : Bool) (c : Char) :
    (escapeChar severalLines c = [c] ∧ c ≠ '"' ∧ c ≠ '\\' ∧
      (isPlain c = true ∨ severalLines = true ∧ c = '\n')) ∨
    ∃ escape, escapeChar severalLines c = '\\' :: escape ∧
      ∀ rest, escape? (escape ++ rest) = some (c, rest) ∧
        afterBreak? (skipBlanks (escape ++ rest)) = none := by
  unfold escapeChar
  split
  · exact Or.inr ⟨['b'], rfl, fun rest => ⟨rfl, rfl⟩⟩
  · exact Or.inr ⟨['t'], rfl, fun rest => ⟨rfl, rfl⟩⟩
  · cases severalLines with
    | true => exact Or.inl ⟨rfl, by decide, by decide, Or.inr ⟨rfl, rfl⟩⟩
    | false => exact Or.inr ⟨['n'], rfl, fun rest => ⟨rfl, rfl⟩⟩
  · exact Or.inr ⟨['f'], rfl, fun rest => ⟨rfl, rfl⟩⟩
  · exact Or.inr ⟨['r'], rfl, fun rest => ⟨rfl, rfl⟩⟩
  · exact Or.inr ⟨['"'], rfl, fun rest => ⟨rfl, rfl⟩⟩
  · exact Or.inr ⟨['\\'], rfl, fun rest => ⟨rfl, rfl⟩⟩
  · rename_i hquote hbackslash
    by_cases hplain : isPlain c = true
    · rw [if_pos hplain]
      exact Or.inl ⟨rfl, hquote, hbackslash, Or.inl hplain⟩
    · rw [if_neg hplain]
      have hsmall : c.toNat < 128 := by
        simp [isPlain] at hplain
        omega
      exact Or.inr ⟨_, rfl, fun rest => ⟨codePoint?_upperHexDigit hsmall rest, rfl⟩⟩

/-- Every character is read back that is written in a string on one line. -/
theorem basicFrom_escapeChar (fuel : Nat) (c : Char) (rest : Text) :
    basicFrom (fuel + 1) (escapeChar false c ++ rest) = withFront [c] (basicFrom fuel rest) := by
  rcases escapeChar_spec false c with ⟨hself, hquote, hbackslash, hplain⟩ | ⟨escape, hescape, h⟩
  · have hplain : isPlain c = true := by simpa using hplain
    rw [hself, List.singleton_append, basicFrom, if_pos hplain]
    · exact hquote
    · exact hbackslash
  · rw [hescape, List.cons_append, basicFrom, (h rest).1, Option.bind_some]

theorem escapeChar_ne_nil (severalLines : Bool) (c : Char) : escapeChar severalLines c ≠ [] := by
  rcases escapeChar_spec severalLines c with ⟨hself, -⟩ | ⟨escape, hescape, -⟩
  · rw [hself]
    exact List.cons_ne_nil _ _
  · rw [hescape]
    exact List.cons_ne_nil _ _

/-- A string on one line between double quotes is read back up to the closing quote. -/
theorem basicFrom_escaped (t rest : Text) {fuel : Nat}
    (hfuel : (t.flatMap (escapeChar false)).length < fuel) :
    basicFrom fuel (t.flatMap (escapeChar false) ++ '"' :: rest) = some (t, rest) := by
  induction t generalizing fuel with
  | nil =>
      obtain ⟨fuel, rfl⟩ := Nat.exists_eq_succ_of_ne_zero (Nat.ne_of_gt hfuel)
      rfl
  | cons c more ih =>
      have hpos := List.length_pos_iff.mpr (escapeChar_ne_nil false c)
      rw [List.flatMap_cons, List.length_append] at hfuel
      obtain ⟨fuel, rfl⟩ := Nat.exists_eq_succ_of_ne_zero (n := fuel) (by omega)
      rw [List.flatMap_cons, List.append_assoc, basicFrom_escapeChar, ih (by omega), withFront_some]
      rfl

/-- A text without single quotes and controls is read back up to the closing quote. -/
theorem literalFrom_append {t : Text} (h : ∀ c ∈ t, isPlain c = true ∧ c ≠ '\'') (rest : Text) :
    literalFrom (t ++ '\'' :: rest) = some (t, rest) := by
  have hinner : (t ++ '\'' :: rest).takeWhile (fun c => isPlain c && c != '\'') = t := by
    rw [List.takeWhile_append_of_pos]
    · simp
    · intro c hc
      simpa using h c hc
  rw [literalFrom, hinner, List.drop_left]
  rfl

theorem takeWhile_replicate_append {quote : Char} {x : Text} (hx : x.head? ≠ some quote) (n : Nat) :
    (List.replicate n quote ++ x).takeWhile (· == quote) = List.replicate n quote := by
  rw [List.takeWhile_append_of_pos]
  · cases x with
    | nil => simp
    | cons c rest =>
        have hc : c ≠ quote := fun heq => hx (heq ▸ rfl)
        simp [hc]
  · intro c hc
    simp [List.eq_of_mem_replicate hc]

theorem afterBreak?_of_isPlain {c : Char} (h : isPlain c = true) (rest : Text) :
    afterBreak? (c :: rest) = none := by
  unfold afterBreak?
  split
  · rename_i heq
    obtain ⟨rfl, -⟩ := List.cons.inj heq
    exact absurd h (by decide)
  · rename_i heq
    obtain ⟨rfl, -⟩ := List.cons.inj heq
    exact absurd h (by decide)
  · rfl

/-- The inside of a string of several lines is read from a text, given the fuel for it. -/
def ReadsInside (quote : Char) (escapes : Bool) (x t rest : Text) : Prop :=
  ∀ fuel, x.length < fuel → multilineFrom quote escapes fuel x = some (t, rest)

section

variable {quote : Char} {escapes : Bool} {x t rest : Text} {n : Nat}

/-- A run of quotes is read at once. -/
theorem multilineFrom_replicate (hx : x.head? ≠ some quote) (hn : 0 < n) (fuel : Nat) :
    multilineFrom quote escapes (fuel + 1) (List.replicate n quote ++ x) =
      if (quoteRun n).2 then
        some (List.replicate (quoteRun n).1 quote,
          (List.replicate n quote ++ x).drop ((quoteRun n).1 + 3))
      else
        withFront (List.replicate (quoteRun n).1 quote)
          (multilineFrom quote escapes fuel
            ((List.replicate n quote ++ x).drop (quoteRun n).1)) := by
  have hrun := takeWhile_replicate_append hx n
  obtain ⟨n, rfl⟩ := Nat.exists_eq_succ_of_ne_zero (Nat.ne_of_gt hn)
  rw [Nat.succ_eq_add_one, List.replicate_succ, List.cons_append] at hrun ⊢
  rw [multilineFrom, if_pos rfl, hrun, ← List.replicate_succ, List.length_replicate]

/-- Up to two quotes in front of the closing ones belong to the string. -/
theorem ReadsInside.close (hrest : rest.head? ≠ some quote) (hn : n < 3) :
    ReadsInside quote escapes (List.replicate (n + 3) quote ++ rest) (List.replicate n quote)
      rest := by
  intro fuel hfuel
  obtain ⟨fuel, rfl⟩ := Nat.exists_eq_succ_of_ne_zero (n := fuel) (by omega)
  have hquotes : quoteRun (n + 3) = (n, true) := by
    rw [quoteRun, if_neg (by omega), Nat.add_sub_cancel, Nat.min_eq_left (by omega)]
  have hdrop : (List.replicate (n + 3) quote ++ rest).drop (n + 3) = rest :=
    List.drop_left' List.length_replicate
  rw [multilineFrom_replicate hrest (by omega), hquotes, if_pos rfl, hdrop]

/-- One or two quotes in a string stand for themselves. -/
theorem ReadsInside.quotes (h : ReadsInside quote escapes x t rest) (hx : x.head? ≠ some quote)
    (hn : n < 3) :
    ReadsInside quote escapes (List.replicate n quote ++ x) (List.replicate n quote ++ t) rest := by
  intro fuel hfuel
  rw [List.length_append, List.length_replicate] at hfuel
  by_cases hzero : n = 0
  · subst hzero
    exact h fuel (by omega)
  · obtain ⟨fuel, rfl⟩ := Nat.exists_eq_succ_of_ne_zero (n := fuel) (by omega)
    have hquotes : quoteRun n = (n, false) := if_pos hn
    have hdrop : (List.replicate n quote ++ x).drop n = x := List.drop_left' List.length_replicate
    rw [multilineFrom_replicate hx (by omega), hquotes, if_neg (by simp), hdrop, h fuel (by omega),
      withFront_some]

/-- A character that is no quote and begins no escape stands for itself. -/
theorem ReadsInside.self (h : ReadsInside quote escapes x t rest) {c : Char} (hquote : c ≠ quote)
    (hbackslash : ¬ (escapes = true ∧ c = '\\')) (hplain : isPlain c = true ∨ c = '\n') :
    ReadsInside quote escapes (c :: x) (c :: t) rest := by
  intro fuel hfuel
  rw [List.length_cons] at hfuel
  obtain ⟨fuel, rfl⟩ := Nat.exists_eq_succ_of_ne_zero (n := fuel) (by omega)
  rw [Nat.succ_eq_add_one, multilineFrom, if_neg hquote, if_neg hbackslash]
  rcases hplain with hplain | rfl
  · rw [afterBreak?_of_isPlain hplain]
    simp only
    rw [if_pos hplain, h fuel (by omega), withFront_some]
    rfl
  · simp only [afterBreak?]
    rw [h fuel (by omega), withFront_some]
    rfl

/-- Every character is read back that is written in a string of several lines. -/
theorem ReadsInside.escapeChar (h : ReadsInside '"' true x t rest) (c : Char) :
    ReadsInside '"' true (escapeChar true c ++ x) (c :: t) rest := by
  rcases escapeChar_spec true c with ⟨hself, hquote, hbackslash, hplain⟩ | ⟨escape, hescape, hread⟩
  · rw [hself]
    exact h.self hquote (by simpa using hbackslash) (by simpa using hplain)
  · intro fuel hfuel
    obtain ⟨hchar, hbreak⟩ := hread x
    rw [hescape, List.cons_append] at hfuel ⊢
    rw [List.length_cons, List.length_append] at hfuel
    obtain ⟨fuel, rfl⟩ := Nat.exists_eq_succ_of_ne_zero (n := fuel) (by omega)
    rw [Nat.succ_eq_add_one, multilineFrom, if_neg (by decide), if_pos ⟨rfl, rfl⟩, hbreak]
    simp only
    rw [hchar, Option.bind_some, h fuel (by omega), withFront_some]
    rfl

/-- No written character begins with a quote. -/
theorem head?_escapeChar_append (severalLines : Bool) (c : Char) (x : Text) :
    (Toml.escapeChar severalLines c ++ x).head? ≠ some '"' := by
  rcases escapeChar_spec severalLines c with ⟨hself, hquote, -⟩ | ⟨escape, hescape, -⟩
  · rw [hself]
    simpa using hquote
  · rw [hescape]
    simp

/-- A string of several lines between double quotes, together with the quotes in front of it that
are in its run, is read back up to the closing quotes. -/
theorem readsInside_escapeLines (hrest : rest.head? ≠ some '"') (hn : n < 3) (t : Text) :
    ReadsInside '"' true
      (List.replicate n '"' ++ (escapeLines n t ++ (List.replicate 3 '"' ++ rest)))
      (List.replicate n '"' ++ t) rest := by
  induction t generalizing n with
  | nil =>
      rw [escapeLines, List.nil_append, List.append_nil, ← List.append_assoc,
        List.replicate_append_replicate]
      exact ReadsInside.close hrest hn
  | cons c more ih =>
      rw [escapeLines]
      by_cases hquote : c = '"' ∧ n < 2
      · obtain ⟨rfl, hlt⟩ := hquote
        have hnext := ih (n := n + 1) (by omega)
        rw [List.replicate_succ', List.append_assoc, List.append_assoc] at hnext
        rw [if_pos ⟨rfl, hlt⟩]
        exact hnext
      · have hnext := (ih (n := 0) (by omega)).escapeChar c
        rw [if_neg hquote, List.append_assoc]
        exact hnext.quotes (head?_escapeChar_append true c _) hn

/-- A text whose runs of single quotes are shorter than three is read back up to the closing quotes,
together with the quotes in front of it that are in its run. -/
theorem readsInside_literal (hrest : rest.head? ≠ some '\'') (hrun : longestRun '\'' n t < 3)
    (hplain : ∀ c ∈ t, isPlain c = true ∨ c = '\n') :
    ReadsInside '\'' false (List.replicate n '\'' ++ (t ++ (List.replicate 3 '\'' ++ rest)))
      (List.replicate n '\'' ++ t) rest := by
  induction t generalizing n with
  | nil =>
      rw [List.nil_append, List.append_nil, ← List.append_assoc, List.replicate_append_replicate]
      exact ReadsInside.close hrest hrun
  | cons c more ih =>
      have hmore := fun d hd => hplain d (List.mem_cons_of_mem c hd)
      rw [longestRun] at hrun
      by_cases hquote : c = '\''
      · subst hquote
        rw [if_pos rfl] at hrun
        have hnext := ih hrun hmore
        rw [List.replicate_succ', List.append_assoc, List.append_assoc] at hnext
        exact hnext
      · rw [if_neg hquote] at hrun
        have hnext := (ih (n := 0) (by omega) hmore).self hquote (by simp)
          (hplain c List.mem_cons_self)
        exact hnext.quotes (by simpa using hquote) (by omega)

/-- A line break after the opening quotes does not count. -/
theorem multiline_openingBreak {body : Text} (h : ReadsInside quote escapes body t rest)
    (hbody : '\n' ∉ t → afterBreak? body = none) :
    multiline quote escapes (openingBreak t ++ body) = some (t, rest) := by
  rw [multiline, openingBreak]
  by_cases hbreak : t.contains ['\n'] = true
  · rw [if_pos hbreak]
    apply h
    rw [List.length_append]
    omega
  · have hmem : '\n' ∉ t := fun hmem => hbreak (Text.contains_singleton_iff.mpr hmem)
    rw [if_neg hbreak, List.nil_append, hbody hmem]
    apply h
    omega

end

/-- A string on one line between double quotes is read back. -/
theorem quoted?_basicString (t : Text) {rest : Text} (hrest : rest.head? ≠ some '"') :
    quoted? (basicString t ++ rest) = some (t, rest) := by
  have hstring : basicString t ++ rest = '"' :: (t.flatMap (escapeChar false) ++ '"' :: rest) := by
    simp [basicString]
  rw [hstring, quoted?]
  · apply basicFrom_escaped
    rw [List.length_append]
    omega
  · intro more hquotes
    cases t with
    | nil =>
        rw [List.flatMap_nil, List.nil_append] at hquotes
        obtain ⟨-, rfl⟩ := List.cons.inj hquotes
        exact hrest rfl
    | cons c more =>
        have hhead := head?_escapeChar_append false c
          (more.flatMap (escapeChar false) ++ '"' :: rest)
        rw [List.flatMap_cons, List.append_assoc] at hquotes
        rw [hquotes] at hhead
        exact hhead rfl

/-- A string between single quotes is read back as it stands. -/
theorem quoted?_literal {t : Text} (h : ∀ c ∈ t, isPlain c = true ∧ c ≠ '\'') {rest : Text}
    (hrest : rest.head? ≠ some '\'') : quoted? ('\'' :: t ++ ['\''] ++ rest) = some (t, rest) := by
  have hstring : '\'' :: t ++ ['\''] ++ rest = '\'' :: (t ++ '\'' :: rest) := by simp
  rw [hstring, quoted?]
  · exact literalFrom_append h rest
  · intro more hquotes
    cases t with
    | nil =>
        obtain ⟨-, rfl⟩ := List.cons.inj hquotes
        exact hrest rfl
    | cons c rest =>
        obtain ⟨rfl, -⟩ := List.cons.inj hquotes
        exact (h _ List.mem_cons_self).2 rfl

theorem afterBreak?_escapeLines {t : Text} (h : '\n' ∉ t) (x : Text) :
    afterBreak? (escapeLines 0 t ++ ('"' :: x)) = none := by
  cases t with
  | nil => rfl
  | cons c more =>
      rw [escapeLines]
      split
      · rfl
      · rcases escapeChar_spec true c with ⟨hself, -, -, hplain⟩ | ⟨escape, hescape, -⟩
        · have hplain : isPlain c = true := by
            rcases hplain with hplain | ⟨-, rfl⟩
            · exact hplain
            · exact absurd List.mem_cons_self h
          rw [hself]
          exact afterBreak?_of_isPlain hplain _
        · rw [hescape]
          rfl

/-- A string of several lines between double quotes is read back. -/
theorem quoted?_basicLines (t : Text) {rest : Text} (hrest : rest.head? ≠ some '"') :
    quoted? (basicLines t ++ rest) = some (t, rest) := by
  have hread := readsInside_escapeLines hrest (n := 0) (by decide) t
  have hstring : basicLines t ++ rest = '"' :: '"' :: '"' ::
      (openingBreak t ++ (escapeLines 0 t ++ (List.replicate 3 '"' ++ rest))) := by
    unfold basicLines
    simp [List.replicate]
  rw [hstring, quoted?]
  exact multiline_openingBreak hread fun hbreak => afterBreak?_escapeLines hbreak _

/-- A string of several lines between single quotes is read back as it stands. -/
theorem quoted?_literalLines {t : Text} (hrun : longestRun '\'' 0 t < 3)
    (hplain : ∀ c ∈ t, isPlain c = true ∨ c = '\n') {rest : Text} (hrest : rest.head? ≠ some '\'') :
    quoted? (literalLines t ++ rest) = some (t, rest) := by
  have hread := readsInside_literal hrest (n := 0) hrun hplain
  have hstring : literalLines t ++ rest = '\'' :: '\'' :: '\'' ::
      (openingBreak t ++ (t ++ (List.replicate 3 '\'' ++ rest))) := by
    unfold literalLines
    simp [List.replicate]
  rw [hstring, quoted?]
  apply multiline_openingBreak hread
  intro hbreak
  cases t with
  | nil => rfl
  | cons c more =>
      rcases hplain c List.mem_cons_self with hc | rfl
      · exact afterBreak?_of_isPlain hc _
      · exact absurd List.mem_cons_self hbreak

theorem le_longestRun (quote : Char) (n : Nat) (t : Text) : n ≤ longestRun quote n t := by
  induction t generalizing n with
  | nil => exact Nat.le_refl n
  | cons c rest ih =>
      rw [longestRun]
      split
      · exact Nat.le_of_succ_le (ih (n + 1))
      · exact Nat.le_max_left _ _

theorem not_mem_of_longestRun_eq_zero {quote : Char} {n : Nat} {t : Text}
    (h : longestRun quote n t = 0) : quote ∉ t := by
  induction t generalizing n with
  | nil => simp
  | cons c rest ih =>
      rw [longestRun] at h
      split at h
      · have hle := le_longestRun quote (n + 1) rest
        omega
      · rename_i hne
        have hrest : longestRun quote 0 rest = 0 := by omega
        rw [List.mem_cons, not_or]
        exact ⟨fun heq => hne heq.symm, ih hrest⟩

theorem isPlain_or_eq_newline {t : Text} (h : needsEscapes t = false) {c : Char} (hc : c ∈ t) :
    isPlain c = true ∨ c = '\n' := by
  rw [needsEscapes, List.any_eq_false] at h
  have hchar := h c hc
  simp only [Bool.and_eq_true, Bool.not_eq_true', bne_iff_ne, ne_eq] at hchar
  by_cases hplain : isPlain c = true
  · exact Or.inl hplain
  · exact Or.inr (by simpa [hplain] using hchar)

/-- A text on one line that needs no escapes has only characters that stand for themselves. -/
theorem isPlain_of_one_line {t : Text} (hescapes : needsEscapes t = false)
    (hbreak : t.contains ['\n'] = false) {c : Char} (hc : c ∈ t) : isPlain c = true := by
  rcases isPlain_or_eq_newline hescapes hc with hplain | rfl
  · exact hplain
  · rw [Text.contains_singleton_iff.mpr hc] at hbreak
    contradiction

/-- Every string that is written is read back, if no quote follows it. -/
theorem quoted?_printString (t : Text) {rest : Text} (hdouble : rest.head? ≠ some '"')
    (hsingle : rest.head? ≠ some '\'') : quoted? (printString t ++ rest) = some (t, rest) := by
  unfold printString
  dsimp only
  split
  · exact quoted?_basicString t hdouble
  · split
    · rename_i hliteral
      simp only [Bool.and_eq_true, Bool.not_eq_true', decide_eq_true_eq] at hliteral
      obtain ⟨⟨hescapes, hquotes⟩, hbreak⟩ := hliteral
      apply quoted?_literal _ hsingle
      intro c hc
      refine ⟨isPlain_of_one_line hescapes hbreak hc, ?_⟩
      rintro rfl
      exact not_mem_of_longestRun_eq_zero hquotes hc
    · split
      · exact quoted?_basicLines t hdouble
      · split
        · rename_i hlines
          simp only [Bool.and_eq_true, Bool.not_eq_true', decide_eq_true_eq] at hlines
          apply quoted?_literalLines hlines.2 _ hsingle
          exact fun c hc => isPlain_or_eq_newline hlines.1 hc
        · split
          · exact quoted?_basicLines t hdouble
          · exact quoted?_basicString t hdouble

theorem skipBlanks_cons {c : Char} (hspace : c ≠ ' ') (htab : c ≠ '\t') (rest : Text) :
    skipBlanks (c :: rest) = c :: rest := by
  simp [skipBlanks, hspace, htab]

/-- A string is written in quotes. -/
theorem exists_printString (t : Text) :
    ∃ quote inside, (quote = '"' ∨ quote = '\'') ∧ printString t = quote :: inside := by
  unfold printString
  dsimp only
  split
  · exact ⟨_, _, Or.inl rfl, rfl⟩
  · split
    · exact ⟨_, _, Or.inr rfl, rfl⟩
    · split
      · exact ⟨_, _, Or.inl rfl, rfl⟩
      · split
        · exact ⟨_, _, Or.inr rfl, rfl⟩
        · split
          · exact ⟨_, _, Or.inl rfl, rfl⟩
          · exact ⟨_, _, Or.inl rfl, rfl⟩

theorem value?_printString (depth : Nat) (t : Text) {rest : Text} (hdouble : rest.head? ≠ some '"')
    (hsingle : rest.head? ≠ some '\'') :
    value? depth (printString t ++ rest) = some (.string t, rest) := by
  have hread := quoted?_printString t hdouble hsingle
  obtain ⟨quote, inside, hquote, hstring⟩ := exists_printString t
  rw [hstring, List.cons_append] at hread ⊢
  rcases hquote with rfl | rfl
  · rw [value?, hread, Option.map_some]
  · rw [value?, hread, Option.map_some]

/-- Blanks and line breaks before something else are skipped. -/
theorem skipLines_blanks (blanks : Text) (h : ∀ c ∈ blanks, c = ' ' ∨ c = '\t' ∨ c = '\n')
    {c : Char} (hblank : c ≠ ' ' ∧ c ≠ '\t' ∧ c ≠ '\n' ∧ c ≠ '\r') (hcomment : c ≠ '#')
    (rest : Text) (n : Nat) : skipLines (n + 1) (blanks ++ c :: rest) = c :: rest := by
  have hbreaks : skipBreaks (blanks ++ c :: rest) = c :: rest := by
    induction blanks with
    | nil => simp [skipBreaks, hblank]
    | cons d more ih =>
        have hmore := ih fun e he => h e (List.mem_cons_of_mem d he)
        rcases h d List.mem_cons_self with rfl | rfl | rfl
        · simpa [skipBreaks] using hmore
        · simpa [skipBreaks] using hmore
        · simpa [skipBreaks] using hmore
  rw [skipLines, hbreaks]
  simp [hcomment]

theorem skipLines_cons {c : Char} (hblank : c ≠ ' ' ∧ c ≠ '\t' ∧ c ≠ '\n' ∧ c ≠ '\r')
    (hcomment : c ≠ '#') (rest : Text) (n : Nat) : skipLines (n + 1) (c :: rest) = c :: rest := by
  exact skipLines_blanks [] (by simp) hblank hcomment rest n

section

variable {value : Text → Option (Toml × Text)} {fuel : Nat} {t rest more : Text} {c : Char}
  {item : Toml}

/-- An array ends at its bracket. -/
theorem items?_close (h : skipLines t.length t = ']' :: rest) :
    items? value (fuel + 1) t = some ([], rest) := by
  rw [items?, h]
  rfl

/-- An item of an array with a comma behind it comes before the others. -/
theorem items?_comma (h : skipLines t.length t = c :: rest) (hc : c ≠ ']')
    (hvalue : value (c :: rest) = some (item, ',' :: more)) :
    items? value (fuel + 1) t =
      (items? value fuel more).map fun (items, rest) => (item :: items, rest) := by
  have hskip : skipLines (more.length + 1) (',' :: more) = ',' :: more :=
    skipLines_cons (by decide) (by decide) more _
  rw [items?, h]
  cases hmore : items? value fuel more with
  | none => simp [hc, hvalue, hskip, hmore]
  | some items => simp [hc, hvalue, hskip, hmore]

/-- The last item of an array may have the bracket right behind it. -/
theorem items?_last (h : skipLines t.length t = c :: rest) (hc : c ≠ ']')
    (hvalue : value (c :: rest) = some (item, ']' :: more)) :
    items? value (fuel + 1) t = some ([item], more) := by
  have hskip : skipLines (more.length + 1) (']' :: more) = ']' :: more :=
    skipLines_cons (by decide) (by decide) more _
  rw [items?, h]
  simp [hc, hvalue, hskip]

end

theorem blank_of_quote {quote : Char} (h : quote = '"' ∨ quote = '\'') :
    (quote ≠ ' ' ∧ quote ≠ '\t' ∧ quote ≠ '\n' ∧ quote ≠ '\r') ∧ quote ≠ '#' ∧ quote ≠ ']' := by
  rcases h with rfl | rfl <;> decide

/-- A line of its own for a string in an array. -/
def itemLine (item : Text) : Text :=
  "\n    ".toList ++ printString item ++ [',']

theorem printStrings_eq (first second : Text) (more : List Text) :
    printStrings (first :: second :: more) =
      '[' :: (first :: second :: more).flatMap itemLine ++ "\n]".toList := by
  have hlines (items : List Text) :
      '\n' :: (items.flatMap fun item => "    ".toList ++ printString item ++ ",\n".toList) =
        items.flatMap itemLine ++ ['\n'] := by
    induction items with
    | nil => rfl
    | cons item rest ih =>
        rw [List.flatMap_cons, List.flatMap_cons, List.append_assoc (itemLine item), ← ih]
        unfold itemLine
        simp
  have hjoined := congrArg (fun body => '[' :: body ++ [']']) (hlines (first :: second :: more))
  simpa [printStrings] using hjoined

/-- The items of an array of strings on lines of their own are read back. -/
theorem items?_itemLines (depth : Nat) (items : List Text) (rest : Text) {fuel : Nat}
    (hfuel : items.length < fuel) :
    items? (value? depth) fuel (items.flatMap itemLine ++ ("\n]".toList ++ rest)) =
      some (items.map .string, rest) := by
  induction items generalizing fuel with
  | nil =>
      obtain ⟨fuel, rfl⟩ := Nat.exists_eq_succ_of_ne_zero (Nat.ne_of_gt hfuel)
      apply items?_close
      exact skipLines_blanks ['\n'] (by simp) (by decide) (by decide) rest _
  | cons item more ih =>
      rw [List.length_cons] at hfuel
      obtain ⟨fuel, rfl⟩ := Nat.exists_eq_succ_of_ne_zero (n := fuel) (by omega)
      obtain ⟨quote, inside, hquote, hstring⟩ := exists_printString item
      have hblank := blank_of_quote hquote
      rw [List.flatMap_cons, List.append_assoc]
      generalize hbehind : more.flatMap itemLine ++ ("\n]".toList ++ rest) = behind at ih ⊢
      have hvalue : value? depth (printString item ++ ',' :: behind) =
          some (.string item, ',' :: behind) := value?_printString depth item (by simp) (by simp)
      have hline : itemLine item ++ behind =
          "\n    ".toList ++ quote :: (inside ++ ',' :: behind) := by
        unfold itemLine
        simp [hstring]
      rw [hstring, List.cons_append] at hvalue
      rw [hline, items?_comma (skipLines_blanks "\n    ".toList (by simp) hblank.1 hblank.2.1 _ _)
        hblank.2.2 hvalue, ih (by omega)]
      rfl

theorem value?_array (depth : Nat) (t : Text) :
    value? (depth + 1) ('[' :: t) =
      (items? (value? depth) (t.length + 1) t).map fun (items, rest) => (.array items, rest) := by
  rw [value?]

theorem length_le_length_flatMap_itemLine (items : List Text) :
    items.length ≤ (items.flatMap itemLine).length := by
  induction items with
  | nil => exact Nat.le_refl 0
  | cons item rest ih =>
      have hline : 1 ≤ (itemLine item).length := by
        unfold itemLine
        simp
      rw [List.flatMap_cons, List.length_append, List.length_cons]
      omega

/-- An array of strings is read back. -/
theorem value?_printStrings (depth : Nat) (items : List Text) (rest : Text) :
    value? (depth + 1) (printStrings items ++ rest) =
      some (.array (items.map .string), rest) := by
  match items with
  | [] =>
      have hclose : skipLines (List.length (']' :: rest)) (']' :: rest) = ']' :: rest :=
        skipLines_cons (by decide) (by decide) rest _
      change value? (depth + 1) ('[' :: ']' :: rest) = _
      rw [value?_array, items?_close hclose]
      rfl
  | [item] =>
      obtain ⟨quote, inside, hquote, hstring⟩ := exists_printString item
      have hblank := blank_of_quote hquote
      have hvalue : value? depth (printString item ++ ']' :: rest) =
          some (.string item, ']' :: rest) := value?_printString depth item (by simp) (by simp)
      have hprinted : printStrings [item] ++ rest = '[' :: quote :: (inside ++ ']' :: rest) := by
        simp [printStrings, hstring]
      rw [hstring, List.cons_append] at hvalue
      rw [hprinted, value?_array, items?_last (skipLines_cons hblank.1 hblank.2.1 _ _) hblank.2.2
        hvalue]
      rfl
  | first :: second :: more =>
      rw [printStrings_eq, List.cons_append, List.cons_append, value?_array, List.append_assoc,
        items?_itemLines]
      · rfl
      · have hlength := length_le_length_flatMap_itemLine (first :: second :: more)
        rw [List.length_append]
        omega

end SqlInsight.Toml
