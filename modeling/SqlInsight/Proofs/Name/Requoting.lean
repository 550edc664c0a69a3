/-
Requoting seen through the lexemes of a text. It finds a bracket in a text with the literals and
comments blanked, and looks for the closing one in the text itself. Both are where the scan has them
as long as no name in double quotes holds an opening bracket: requoting then writes the lexemes of
the text one after another, the closed bracketed names anew and all others as they are.
-/
import SqlInsight.Name.Requoting
import SqlInsight.Proofs.Text.Lexemes

namespace SqlInsight

open Text ScanState

namespace Name

/-- What follows an opening bracket that a later one closes: the inside, the closing bracket and
the rest. In the inside a closing bracket stands twice. -/
inductive Closing : Text → Text → Text → Prop where
  | close {more : Text} (h : more.head? ≠ some ']') : Closing (']' :: more) [] more
  | doubled {t inner more : Text} (h : Closing t inner more) :
      Closing (']' :: ']' :: t) (']' :: ']' :: inner) more
  | plain {c : Char} {t inner more : Text} (hc : c ≠ ']') (h : Closing t inner more) :
      Closing (c :: t) (c :: inner) more

/-- What follows an opening bracket that nothing closes. -/
inductive Unclosed : Text → Prop where
  | nil : Unclosed []
  | doubled {t : Text} (h : Unclosed t) : Unclosed (']' :: ']' :: t)
  | plain {c : Char} {t : Text} (hc : c ≠ ']') (h : Unclosed t) : Unclosed (c :: t)

/-- Characters inside brackets. -/
def bracket (t : Text) : Marked :=
  t.map fun c => (c, .bracketed)

@[simp] theorem text_bracket (t : Text) : (bracket t).text = t := by
  simp [bracket, Marked.text, Function.comp_def]

theorem bracket_cons (c : Char) (t : Text) : bracket (c :: t) = (c, .bracketed) :: bracket t := rfl

/-- An opening bracket is closed or it is not. -/
theorem closing_or_unclosed : ∀ t : Text, (∃ inner more, Closing t inner more) ∨ Unclosed t
  | [] => Or.inr .nil
  | c :: rest => by
      by_cases hc : c = ']'
      · subst hc
        match rest with
        | [] => exact Or.inl ⟨[], [], .close (by simp)⟩
        | d :: rest =>
            by_cases hd : d = ']'
            · subst hd
              rcases closing_or_unclosed rest with ⟨inner, more, h⟩ | h
              · exact Or.inl ⟨_, _, .doubled h⟩
              · exact Or.inr (.doubled h)
            · exact Or.inl ⟨[], d :: rest, .close (by simpa using hd)⟩
      · rcases closing_or_unclosed rest with ⟨inner, more, h⟩ | h
        · exact Or.inl ⟨_, _, .plain hc h⟩
        · exact Or.inr (.plain hc h)

section Scan

variable {t inner more : Text}

theorem Closing.eq_append (h : Closing t inner more) : t = inner ++ ']' :: more := by
  induction h with
  | close => rfl
  | doubled _ ih => rw [ih]; rfl
  | plain _ _ ih => rw [ih]; rfl

/-- The inside and the closing bracket by themselves. -/
theorem Closing.alone (h : Closing t inner more) : Closing (inner ++ [']']) inner [] := by
  induction h with
  | close => exact .close (by simp)
  | doubled _ ih => exact .doubled ih
  | plain hc _ ih => exact .plain hc ih

theorem step_plain {c : Char} (hc : c ≠ ']') (next : Option Char) :
    (inside .bracketed).step c next = (.bracketed, inside .bracketed) := by
  simp [step, stepDelimited, hc]

theorem step_close {next : Option Char} (h : next ≠ some ']') :
    (inside .bracketed).step ']' next = (.bracketed, start) := by
  simp [step, stepDelimited, h, start]

/-- The scan stands in code behind the bracket that closes. -/
theorem Closing.scanFrom (h : Closing t inner more) :
    scanFrom (inside .bracketed) t = scanFrom start more := by
  induction h with
  | close h => rw [Text.scanFrom, step_close h]
  | doubled _ ih => exact ih
  | plain hc _ ih => rw [Text.scanFrom, step_plain hc, ih]

theorem Unclosed.scanFrom (h : Unclosed t) :
    scanFrom (inside .bracketed) t = inside .bracketed := by
  induction h with
  | nil => rfl
  | doubled _ ih => exact ih
  | plain hc _ ih => rw [Text.scanFrom, step_plain hc, ih]

theorem regionsFrom_plain {c : Char} (hc : c ≠ ']') (t : Text) :
    regionsFrom (inside .bracketed) (c :: t) =
      (c, .bracketed) :: regionsFrom (inside .bracketed) t := by
  rw [regionsFrom_cons, step_plain hc]

theorem regionsFrom_doubled (t : Text) :
    regionsFrom (inside .bracketed) (']' :: ']' :: t) =
      (']', .bracketed) :: (']', .bracketed) :: regionsFrom (inside .bracketed) t := rfl

theorem Closing.regionsFrom (h : Closing t inner more) :
    regionsFrom (inside .bracketed) t = bracket inner ++ (']', .bracketed) :: regions more := by
  induction h with
  | close h =>
      rw [regionsFrom_cons, step_close h]
      rfl
  | doubled _ ih =>
      rw [regionsFrom_doubled, ih]
      rfl
  | plain hc _ ih =>
      rw [regionsFrom_plain hc, ih]
      rfl

theorem Unclosed.regionsFrom (h : Unclosed t) :
    regionsFrom (inside .bracketed) t = bracket t := by
  induction h with
  | nil => rfl
  | doubled _ ih =>
      rw [regionsFrom_doubled, ih]
      rfl
  | plain hc _ ih =>
      rw [regionsFrom_plain hc, ih]
      rfl

/-- A lexeme goes on behind a character inside brackets that leaves the scan there. -/
theorem lexemesFrom_bracketed {s next : ScanState} {c : Char}
    (hstep : s.step c t.head? = (.bracketed, next))
    (hnext : next = inside .bracketed ∨ next = midway .bracketed .bracketed) :
    lexemesFrom s (c :: t) = attach (c, .bracketed) (lexemesFrom next t) := by
  have hafter : (regionsFrom next t).head?.map Prod.snd ≠ some .code := by
    cases t with
    | nil => simp [Text.regionsFrom]
    | cons d t =>
        rw [regionsFrom_cons]
        rcases hnext with rfl | rfl
        · simp only [step, stepDelimited]
          split_ifs <;> simp
        · simp [step]
  have hgoes : endsLexeme .bracketed next ((regionsFrom next t).head?.map Prod.snd) = false := by
    rcases hnext with rfl | rfl <;> simp [endsLexeme, start, hafter]
  rw [lexemesFrom_cons, hstep, hgoes]
  rfl

theorem lexemesFrom_plain {c : Char} (hc : c ≠ ']') (t : Text) :
    lexemesFrom (inside .bracketed) (c :: t) =
      attach (c, .bracketed) (lexemesFrom (inside .bracketed) t) :=
  lexemesFrom_bracketed (step_plain hc _) (Or.inl rfl)

theorem lexemesFrom_doubled (t : Text) :
    lexemesFrom (inside .bracketed) (']' :: ']' :: t) =
      attach (']', .bracketed) (attach (']', .bracketed) (lexemesFrom (inside .bracketed) t)) := by
  rw [lexemesFrom_bracketed rfl (Or.inr rfl), lexemesFrom_bracketed rfl (Or.inl rfl)]

/-- A closed bracketed name is one lexeme. -/
theorem Closing.lexemesFrom (h : Closing t inner more) :
    lexemesFrom (inside .bracketed) t = bracket (inner ++ [']']) :: lexemes more := by
  induction h with
  | close h =>
      rw [lexemesFrom_cons, step_close h]
      rfl
  | doubled _ ih =>
      rw [lexemesFrom_doubled, ih]
      rfl
  | plain hc _ ih =>
      rw [lexemesFrom_plain hc, ih]
      rfl

/-- Behind a bracket that nothing closes the whole rest is one lexeme. -/
theorem Unclosed.attach_lexemesFrom (h : Unclosed t) (x : Char × Region) :
    attach x (lexemesFrom (inside .bracketed) t) = [x :: bracket t] := by
  induction h generalizing x with
  | nil => rfl
  | doubled _ ih =>
      rw [lexemesFrom_doubled, ih]
      rfl
  | plain hc _ ih =>
      rw [lexemesFrom_plain hc, ih]
      rfl

theorem closeBracket_plain {c : Char} (hc : c ≠ ']') (r : Region) (rest : Marked) :
    closeBracket Prod.fst ((c, r) :: rest) =
      (closeBracket Prod.fst rest).map fun (inner, more) => ((c, r) :: inner, more) := by
  cases rest <;> simp [closeBracket, hc]

theorem closeBracket_doubled (r r' : Region) (rest : Marked) :
    closeBracket Prod.fst ((']', r) :: (']', r') :: rest) =
      (closeBracket Prod.fst rest).map fun (inner, more) =>
        ((']', r) :: (']', r') :: inner, more) := by
  simp [closeBracket]

/-- Requoting finds the closing bracket where the scan does. -/
theorem Closing.closeBracket (h : Closing t inner more) :
    closeBracket Prod.fst (bracket inner ++ (']', .bracketed) :: regions more) =
      some (bracket inner, regions more) := by
  induction h with
  | @close more h =>
      cases more with
      | nil => rfl
      | cons d more =>
          have hd : d ≠ ']' := by simpa using h
          rw [regions, regionsFrom_cons]
          simp [bracket, Name.closeBracket, hd]
  | doubled _ ih =>
      rw [bracket_cons, bracket_cons, List.cons_append, List.cons_append, closeBracket_doubled, ih]
      rfl
  | plain hc _ ih =>
      rw [bracket_cons, List.cons_append, closeBracket_plain hc, ih]
      rfl

theorem Unclosed.closeBracket (h : Unclosed t) :
    closeBracket Prod.fst (bracket t) = none := by
  induction h with
  | nil => rfl
  | doubled _ ih =>
      rw [bracket_cons, bracket_cons, closeBracket_doubled, ih]
      rfl
  | plain hc _ ih =>
      rw [bracket_cons, closeBracket_plain hc, ih]
      rfl

end Scan

/-- What requoting makes of a lexeme: a closed bracketed name is written anew, and all else is
copied. -/
def requoted (quote : Char) : Marked → Text
  | [] => []
  | c :: rest =>
      if c.2 = .bracketed ∧ (Marked.text (c :: rest)).endRegion = .code then
        render quote (Marked.text rest.dropLast)
      else Marked.text (c :: rest)

variable (quote : Char)

theorem requoted_of_ne {c : Char × Region} (hc : c.2 ≠ .bracketed) (rest : Marked) :
    requoted quote (c :: rest) = c.1 :: Marked.text rest := by
  simp [requoted, hc, Marked.text]

theorem endRegion_bracket (t : Text) :
    endRegion ('[' :: t) = (Text.scanFrom (inside .bracketed) t).region := rfl

theorem requoted_closed {t inner more : Text} (h : Closing t inner more) :
    requoted quote (('[', .bracketed) :: bracket (inner ++ [']'])) = render quote inner := by
  have hend : (Marked.text (('[', .bracketed) :: bracket (inner ++ [']']))).endRegion = .code := by
    change endRegion ('[' :: (bracket (inner ++ [']'])).text) = .code
    rw [text_bracket, endRegion_bracket, h.alone.scanFrom]
    rfl
  have hinside : Marked.text (bracket (inner ++ [']'])).dropLast = inner := by
    simp [bracket, Marked.text, Function.comp_def]
  rw [requoted, if_pos ⟨rfl, hend⟩, hinside]

theorem requoted_unclosed {t : Text} (h : Unclosed t) :
    requoted quote (('[', .bracketed) :: bracket t) = '[' :: t := by
  have htext : Marked.text (('[', .bracketed) :: bracket t) = '[' :: t := by
    change '[' :: (bracket t).text = '[' :: t
    rw [text_bracket]
  have hend : endRegion ('[' :: t) ≠ .code := by
    rw [endRegion_bracket, h.scanFrom]
    simp [region]
  rw [requoted, htext, if_neg fun hclosed => hend hclosed.2]

/-- A character outside brackets is copied, whether its lexeme goes on behind it or not. -/
theorem flatMap_requoted_lexemesFrom {s : ScanState} {kind : Region} (hs : s.Within kind) {c : Char}
    {rest : Text} (hc : (s.step c rest.head?).1 ≠ .bracketed) :
    (Text.lexemesFrom s (c :: rest)).flatMap (requoted quote) =
      c :: (Text.lexemesFrom (s.step c rest.head?).2 rest).flatMap (requoted quote) := by
  rw [lexemesFrom_cons]
  split
  · rw [List.flatMap_cons, requoted_of_ne quote hc]
    rfl
  · rename_i hgoes
    cases rest with
    | nil => exact congrArg (· ++ []) (requoted_of_ne quote hc [])
    | cons d rest =>
        rw [List.head?_cons] at hc hgoes ⊢
        obtain ⟨lexeme, more, hmore⟩ := exists_lexemesFrom_cons (s.step c (some d)).2 d rest
        have hd : ((s.step c (some d)).2.step d rest.head?).1 ≠ .bracketed := by
          intro hbracketed
          have hkind := kind_eq_of_not_endsLexeme hs hgoes
          rw [hbracketed] at hkind
          exact hc (Region.kind_eq_bracketed hkind.symm)
        rw [hmore, attach, List.flatMap_cons, List.flatMap_cons, requoted_of_ne quote hc,
          requoted_of_ne quote hd]
        rfl

theorem requoteMarked_cons {c : Char × Region} (hc : shown c ≠ '[') (rest : Marked) :
    requoteMarked quote (c :: rest) = c.1 :: requoteMarked quote rest := by
  rw [requoteMarked, if_neg hc]

theorem shown_bracket : shown ('[', .bracketed) = '[' := rfl

theorem requoteMarked_of_some {c : Char × Region} {rest inner more : Marked} (hc : shown c = '[')
    (h : closeBracket Prod.fst rest = some (inner, more)) :
    requoteMarked quote (c :: rest) = render quote inner.text ++ requoteMarked quote more := by
  rw [requoteMarked, if_pos hc]
  split
  · rename_i hnone
    rw [h] at hnone
    contradiction
  · rename_i hsome
    rw [h] at hsome
    obtain ⟨rfl, rfl⟩ := Prod.mk.inj (Option.some.inj hsome)
    rfl

theorem requoteMarked_of_none {c : Char × Region} {rest : Marked} (hc : shown c = '[')
    (h : closeBracket Prod.fst rest = none) :
    requoteMarked quote (c :: rest) = c.1 :: rest.text := by
  rw [requoteMarked, if_pos hc]
  split
  · rfl
  · rename_i hsome
    rw [h] at hsome
    contradiction

theorem requoteMarked_closed {t inner more : Text} (h : Closing t inner more) :
    requoteMarked quote (('[', .bracketed) :: Text.regionsFrom (inside .bracketed) t) =
      render quote inner ++ requoteMarked quote more.regions := by
  rw [h.regionsFrom, requoteMarked_of_some quote shown_bracket h.closeBracket, text_bracket]

theorem requoteMarked_unclosed {t : Text} (h : Unclosed t) :
    requoteMarked quote (('[', .bracketed) :: Text.regionsFrom (inside .bracketed) t) =
      '[' :: t := by
  rw [h.regionsFrom, requoteMarked_of_none quote shown_bracket h.closeBracket, text_bracket]

theorem step_bracket_ne_code {s : ScanState} {kind : Region} (hs : s.Within kind)
    (next : Option Char) : (s.step '[' next).1 ≠ .code := by
  cases s with
  | midway region after => exact hs.2.1
  | inside region =>
      cases region <;> simp [step, stepCode, stepDelimited, stepBlock]

/-- An opening bracket that the mask of literals leaves opens a bracketed name, if no name in double
quotes holds it. -/
theorem shown_ne_bracket {s : ScanState} {kind : Region} (hs : s.Within kind) {c : Char}
    {next : Option Char} (hbracketed : (s.step c next).1 ≠ .bracketed)
    (hquoted : (s.step c next).1 = .doubleQuoted → c ≠ '[') :
    shown (c, (s.step c next).1) ≠ '[' := by
  intro hshown
  obtain ⟨hmasked, rfl⟩ : (s.step c next).1.isMasked .literals = false ∧ c = '[' := by
    unfold shown at hshown
    split_ifs at hshown with hmasked
    · contradiction
    · simp at hshown
    · exact ⟨by simpa using hmasked, hshown⟩
  have hcode := step_bracket_ne_code hs next
  cases hregion : (s.step '[' next).1 <;> simp_all [Region.isMasked]

/-- Requoting a text whose scan stands outside brackets writes its lexemes one after another. -/
theorem requoteMarked_regionsFrom {s : ScanState} {kind : Region} (hs : s.Within kind)
    (hkind : kind ≠ .bracketed) (t : Text)
    (h : ∀ x ∈ Text.regionsFrom s t, x.2 = .doubleQuoted → x.1 ≠ '[') :
    requoteMarked quote (Text.regionsFrom s t) =
      (Text.lexemesFrom s t).flatMap (requoted quote) := by
  induction hlength : t.length using Nat.strong_induction_on generalizing s kind t with
  | h n ih =>
      cases t with
      | nil => simp [Text.regionsFrom, Text.lexemesFrom, requoteMarked]
      | cons c rest =>
          have hshorter : rest.length < n := by
            rw [← hlength, List.length_cons]
            omega
          by_cases hbracketed : (s.step c rest.head?).1 = .bracketed
          · obtain ⟨rfl, hstep⟩ := step_bracketed hs hkind hbracketed
            rw [regionsFrom_cons, hstep] at h ⊢
            rw [lexemesFrom_bracketed hstep (Or.inl rfl)]
            rcases closing_or_unclosed rest with ⟨inner, more, hclosing⟩ | hunclosed
            · have hmore : more.length < n := by
                rw [hclosing.eq_append, List.length_append, List.length_cons] at hshorter
                omega
              have hquoted : ∀ x ∈ more.regions, x.2 = .doubleQuoted → x.1 ≠ '[' := by
                intro x hx
                apply h x
                rw [hclosing.regionsFrom]
                simp [hx]
              rw [requoteMarked_closed quote hclosing, hclosing.lexemesFrom, attach,
                List.flatMap_cons, requoted_closed quote hclosing]
              exact congrArg _ (ih more.length hmore within_start (by decide) more hquoted rfl)
            · rw [requoteMarked_unclosed quote hunclosed, hunclosed.attach_lexemesFrom,
                List.flatMap_singleton, requoted_unclosed quote hunclosed]
          · obtain ⟨kind', hkind', hnext⟩ := exists_within_step hs c rest.head?
            have hkind' : kind' ≠ .bracketed := by
              rcases hkind' with rfl | rfl
              · decide
              · exact fun heq => hbracketed (Region.kind_eq_bracketed heq)
            rw [regionsFrom_cons] at h ⊢
            have hrest := ih rest.length hshorter hnext hkind' rest
              (fun x hx => h x (List.mem_cons_of_mem _ hx)) rfl
            rw [requoteMarked_cons quote
              (shown_ne_bracket hs hbracketed (h _ List.mem_cons_self)), hrest,
              flatMap_requoted_lexemesFrom quote hs hbracketed]

/-- Requoting writes the lexemes of a text one after another, each of them code or of one kind of
literal, delimited identifier or comment: the closed bracketed names anew, all others as they are.
No name in double quotes may hold an opening bracket; a closing one does no harm. -/
theorem requoteAll_eq_flatMap {t : Text} (h : ∀ x ∈ t.regions, x.2 = .doubleQuoted → x.1 ≠ '[') :
    t.lexemes.flatten = t.regions ∧ (∀ lexeme ∈ t.lexemes, SameKind lexeme) ∧
      requoteAll quote t = t.lexemes.flatMap (requoted quote) :=
  ⟨flatten_lexemes t, fun _ => sameKind_of_mem_lexemes,
    requoteMarked_regionsFrom quote within_start (by decide) t h⟩

/-- Brackets in a literal, in a comment and doubled in a name, and a closing one in quotes. -/
theorem requoteAll_eq_flatMap_doubled :
    requoteAll '"' "'[a]', [b]]c][d] \"e]\" -- [f]".toList =
      "'[a]', \"b]c\"d \"e]\" -- [f]".toList := by
  refine (requoteAll_eq_flatMap '"' (by decide)).2.2.trans ?_
  decide +kernel

/-- An opening bracket in double quotes is taken for that of a bracketed name. -/
theorem requoteAll_in_double_quotes :
    (lexemes "\"a[b]c\"".toList).flatMap (requoted '"') = "\"a[b]c\"".toList ∧
      requoteAll '"' "\"a[b]c\"".toList = "\"abc\"".toList := by
  constructor
  · decide +kernel
  · have hregions : regions "\"a[b]c\"".toList = [('"', .doubleQuoted), ('a', .doubleQuoted),
        ('[', .doubleQuoted), ('b', .doubleQuoted), (']', .doubleQuoted), ('c', .doubleQuoted),
        ('"', .doubleQuoted)] := by decide +kernel
    have hclose : closeBracket Prod.fst [('b', .doubleQuoted), (']', .doubleQuoted),
        ('c', .doubleQuoted), ('"', .doubleQuoted)] =
          some ([('b', .doubleQuoted)], [('c', .doubleQuoted), ('"', .doubleQuoted)]) := rfl
    rw [requoteAll, hregions, requoteMarked_cons _ (by decide), requoteMarked_cons _ (by decide),
      requoteMarked_of_some _ rfl hclose, requoteMarked_cons _ (by decide),
      requoteMarked_cons _ (by decide), requoteMarked]
    decide +kernel

end Name

end SqlInsight
