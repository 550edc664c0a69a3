/-
What belongs at the cursor does not depend on what stands between the delimiters of quiet names.
The words before the cursor are read in lockstep; and where a closed name touches neither the word
that is being typed nor the dot in front of it, what is read backwards from the cursor ends behind
the name. A name that holds a sign or a word that patterns go by does steer what is offered.
-/
import SqlInsight.Proofs.Completion.ClauseWords

namespace SqlInsight

open Text

namespace Completion

/-- The words after which a context stands. -/
def Context.lastKeyword : Context → Option Text
  | .table after | .routine after => some after
  | .column after _ => after
  | _ => none

/-- Whether a context stands in the body of a common table expression. -/
def Context.inCte : Context → Bool
  | .column _ inCte => inCte
  | _ => false

/-- Whether contexts differ at most in the names that they give. -/
structure Context.Agrees (c d : Context) : Prop where
  kind : c.kind = d.kind
  lastKeyword : c.lastKeyword = d.lastKeyword
  inCte : c.inCte = d.inCte

/-- Whether what is read backwards from the end of a text ends within it: what is being typed, and
the identifier before a dot in front of that. -/
structure StandsClear (t : Text) : Prop where
  typed : ∃ c ∈ t, CharClass.isName c = false
  dotted : ∀ head, (splitTyped t).1 = head ++ ['.'] →
    head ≠ [] ∧ ∀ c ∈ head.getLast?, Closes c → (lastIdentifier? head).isSome = true

/-- Texts that differ only between the delimiters of closed names, and what both end with behind the
last of these names. Of what stands between the delimiters, and of the text up to the next of these
names behind it, `P` holds. -/
inductive DiffersInNames (P : Text → Text → Prop) : Text → Text → Text → Prop where
  | same (p : Text) : DiffersInNames P p p p
  | name {a b p x y tail : Text} {opening closing : Char} {r : Region}
      (front : DiffersInNames P a b p) (code : a.endRegion = .code)
      (apart : a.getLast? ≠ some opening) (delimits : Delimits opening closing r)
      (left : closing ∉ x ∧ P x tail) (right : closing ∉ y ∧ P y tail)
      (closed : tail.head? ≠ some closing) :
      DiffersInNames P (a ++ opening :: (x ++ closing :: tail))
        (b ++ opening :: (y ++ closing :: tail)) tail

/-- Whether a name is quiet in front of a text in which literals and comments do not count. -/
def QuietIn (x tail : Text) : Prop :=
  QuietBefore (tail.mask .literals) x

def EndsInName (t : Text) (closing : Char) : Prop :=
  ∃ front c, t = front ++ [c, closing] ∧ CharClass.isName c = true ∧ Closes closing

section Ends

variable {p w : Text} {closing : Char}

theorem EndsInName.endsName (h : EndsInName p closing) : endsName p = false := by
  obtain ⟨front, c, rfl, -, hc⟩ := h
  rw [endsName_append (List.cons_ne_nil _ _), endsName_cons_cons, endsName_singleton]
  exact isName_of_steers hc.steers

theorem EndsInName.getLast? (h : EndsInName p closing) : p.getLast? = some closing := by
  obtain ⟨front, c, rfl, -, -⟩ := h
  simp

theorem splitTyped_append_of_typed (h : endsName p = false)
    (hw : ∃ c ∈ w, CharClass.isName c = false) :
    splitTyped (p ++ w) = (p ++ (splitTyped w).1, (splitTyped w).2) := by
  have hlength : (nameTail w).length < w.length := by
    obtain ⟨c, hc, hname⟩ := hw
    have hbegins : w.reverse.takeWhile CharClass.isName <+: w.reverse := List.takeWhile_prefix _
    rw [nameTail, List.length_reverse, ← w.length_reverse]
    refine Nat.lt_of_le_of_ne hbegins.length_le fun heq => ?_
    have hall :=
      List.takeWhile_eq_self_iff.mp (hbegins.eq_of_length heq) c (List.mem_reverse.mpr hc)
    rw [hname] at hall
    contradiction
  have htake : (p ++ w).take ((p ++ w).length - (nameTail w).length) =
      p ++ w.take (w.length - (nameTail w).length) := by
    rw [List.length_append, Nat.add_sub_assoc hlength.le, List.take_length_add_append]
  have hne : w.take (w.length - (nameTail w).length) ≠ [] := by
    rw [ne_eq, List.take_eq_nil_iff]
    rintro (hzero | rfl)
    · omega
    · exact absurd hlength (Nat.not_lt_zero _)
  unfold splitTyped
  simp only [nameTail_append_of_not_endsName h, htake, List.getLast?_append_of_ne_nil _ hne]
  split
  · rw [List.dropLast_append_of_ne_nil hne]
  · rw [List.dropLast_append_of_ne_nil hne]
  · rfl

theorem EndsInName.trimEnd_append (h : EndsInName p closing) (w : Text) :
    trimEnd (p ++ w) = p ++ trimEnd w := by
  obtain ⟨front, c, rfl, -, hc⟩ := h
  have hsplit (w : Text) : front ++ [c, closing] ++ w = (front ++ [c]) ++ closing :: w := by simp
  rw [hsplit, hsplit, trimEnd, dropEndWhile_append_cons _ _ _ (isBlank_of_steers hc.steers),
    trimEnd]

/-- A place that is set off does not lie within the end of a name. -/
theorem EndsInName.of_setOff {before a : Text} (h : EndsInName (before ++ a) closing)
    (hset : SetOff before) : EndsInName a closing := by
  obtain ⟨front, c, hsplit, hname, hc⟩ := h
  have hnotBlank {d : Char} (hd : before.getLast? = some d) (hfalse : CharClass.isBlank d = false) :
      False := by
    rw [hset d hd] at hfalse
    contradiction
  rcases List.append_eq_append_iff.mp hsplit with ⟨m, rfl, rfl⟩ | ⟨m, rfl, hlast⟩
  · exact ⟨m, c, rfl, hname, hc⟩
  · cases m with
    | nil => exact ⟨[], c, hlast.symm, hname, hc⟩
    | cons d m =>
        obtain ⟨rfl, hbehind⟩ := List.cons.inj hlast
        cases m with
        | nil => exact (hnotBlank List.getLast?_concat (isBlank_of_isName hname)).elim
        | cons e m =>
            obtain ⟨rfl, hnil⟩ := List.cons.inj hbehind
            obtain ⟨rfl, -⟩ := List.append_eq_nil_iff.mp hnil.symm
            exact (hnotBlank (by simp) (isBlank_of_steers hc.steers)).elim

/-- No stretch between blanks that is a word begins with what ends with a name. -/
theorem EndsInName.not_isPrefix {a signs written gap : Text} (h : EndsInName a closing)
    (hsigns : ∀ c ∈ signs, CharClass.isName c = false ∧ CharClass.isBlank c = false)
    (hwritten : ∀ c ∈ written, CharClass.isName c = true) (hgap : gap.isBlank = true) :
    ¬a <+: signs ++ (written ++ gap) := by
  rintro ⟨w, hsplit⟩
  obtain ⟨front, c, rfl, hname, hc⟩ := h
  have hclosing : closing ∉ written ++ gap := by
    intro hin
    rcases List.mem_append.mp hin with hin | hin
    · have hfalse := hwritten closing hin
      rw [isName_of_steers hc.steers] at hfalse
      contradiction
    · have hfalse := List.all_eq_true.mp hgap closing hin
      rw [isBlank_of_steers hc.steers] at hfalse
      contradiction
  have hstretch : signs ++ (written ++ gap) = front ++ c :: closing :: w := by
    rw [← hsplit, List.append_assoc]
    rfl
  rcases List.append_eq_append_iff.mp hstretch with ⟨m, rfl, hrest⟩ | ⟨m, rfl, hrest⟩
  · exact hclosing (by rw [hrest]; simp)
  · cases m with
    | nil =>
        rw [List.nil_append] at hrest
        exact hclosing (by rw [← hrest]; simp)
    | cons e m =>
        obtain rfl := (List.cons.inj hrest).1
        have hsign := (hsigns c (by simp)).1
        rw [hname] at hsign
        contradiction

/-- No stretch between blanks begins within the end of a name, and none that is a word goes over
it. -/
theorem EndsInName.endsInWord_iff (h : EndsInName p closing) {list : List String}
    (hlist : AreNames list) {before word : Text} : EndsInWord list (p ++ w) before word ↔
      ∃ b, b ≠ [] ∧ before = p ++ b ∧ EndsInWord list w b word := by
  constructor
  · rintro ⟨signs, written, gap, hsplit, hset, hsigns, hgap, rfl, hmem⟩
    rw [List.append_assoc, List.append_assoc] at hsplit
    rcases List.append_eq_append_iff.mp hsplit with ⟨b, rfl, rfl⟩ | ⟨a, rfl, hbehind⟩
    · have hb : b ≠ [] := by
        rintro rfl
        rw [List.append_nil] at hset
        have hblank := hset closing h.getLast?
        obtain ⟨-, -, -, -, hc⟩ := h
        rw [isBlank_of_steers hc.steers] at hblank
        contradiction
      refine ⟨b, hb, rfl, signs, written, gap, by simp, ?_, hsigns, hgap, rfl, hmem⟩
      rwa [SetOff, List.getLast?_append_of_ne_nil _ hb] at hset
    · exact absurd ⟨w, hbehind.symm⟩ ((h.of_setOff hset).not_isPrefix hsigns
        (isName_of_among hlist hmem).2 hgap)
  · rintro ⟨b, hb, rfl, signs, written, gap, rfl, hset, hsigns, hgap, hword, hmem⟩
    refine ⟨signs, written, gap, by simp, ?_, hsigns, hgap, hword, hmem⟩
    rwa [SetOff, List.getLast?_append_of_ne_nil _ hb]

/-- What the words at the end of a text introduce does not depend on the name before them. -/
theorem EndsInName.introduces {p' after : Text} (h : EndsInName p closing)
    (h' : EndsInName p' closing) (hafter : Introduces (p ++ w) after) :
    Introduces (p' ++ w) after := by
  have hmove {list : List String} (hlist : AreNames list) {p p' w b word : Text}
      (h : EndsInName p closing) (h' : EndsInName p' closing)
      (hends : EndsInWord list (p ++ w) (p ++ b) word) :
      EndsInWord list (p' ++ w) (p' ++ b) word := by
    obtain ⟨b', hb', hsame, hends⟩ := (h.endsInWord_iff hlist).mp hends
    obtain rfl := List.append_cancel_left hsame
    exact (h'.endsInWord_iff hlist).mpr ⟨b, hb', rfl, hends⟩
  cases hafter with
  | alone hends hnone =>
      obtain ⟨b, -, rfl, -⟩ := (h.endsInWord_iff areNames_tableWords).mp hends
      refine .alone (hmove areNames_tableWords h h' hends) fun hjoins before modifier hjoin => ?_
      obtain ⟨b', -, rfl, -⟩ := (h'.endsInWord_iff areNames_joinWords).mp hjoin
      exact hnone hjoins _ modifier (hmove areNames_joinWords h' h hjoin)
  | joined hends hjoins hmodifier =>
      obtain ⟨b, -, rfl, -⟩ := (h.endsInWord_iff areNames_tableWords).mp hends
      obtain ⟨b', -, rfl, -⟩ := (h.endsInWord_iff areNames_joinWords).mp hmodifier
      exact .joined (hmove areNames_tableWords h h' hends) hjoins
        (hmove areNames_joinWords h h' hmodifier)

theorem EndsInName.tableWords?_eq {p' : Text} (h : EndsInName p closing)
    (h' : EndsInName p' closing) (w : Text) : tableWords? (p ++ w) = tableWords? (p' ++ w) := by
  ext after
  rw [tableWords?_eq_some_iff, tableWords?_eq_some_iff]
  exact ⟨h.introduces h', h'.introduces h⟩

theorem length_nameTail_le (t : Text) : (nameTail t).length ≤ t.length := by
  rw [nameTail, List.length_reverse, ← t.length_reverse]
  exact (List.takeWhile_prefix _).length_le

theorem lastIdentifier?_of_not_closes {t : Text} {c : Char} (hc : ¬Closes c)
    (ht : t.getLast? = some c) : lastIdentifier? t =
      if (nameTail t).isEmpty then none
      else some (nameTail t, t.take (t.length - (nameTail t).length)) := by
  rw [List.getLast?_eq_head?_reverse] at ht
  unfold lastIdentifier?
  split
  · rename_i heq
    rw [heq] at ht
    exact absurd (Or.inl (Option.some.inj ht).symm) hc
  · rename_i heq
    rw [heq] at ht
    exact absurd (Or.inr (Option.some.inj ht).symm) hc
  · rfl

theorem mem_of_isSome_delimitedEnd? {opening closing : Char} {t : Text}
    (h : (delimitedEnd? opening closing t).isSome = true) : opening ∈ t := by
  by_contra hnot
  have hall : ∀ d ∈ t, (d != opening) = true := by
    intro d hd
    rw [bne_iff_ne]
    rintro rfl
    exact hnot hd
  simp only [delimitedEnd?, drop_length_takeWhile, List.dropWhile_eq_nil_iff.mpr hall,
    Option.isSome_none] at h
  contradiction

theorem delimitedEnd?_append {opening closing : Char} {t : Text}
    (h : (delimitedEnd? opening closing t).isSome = true) (p : Text) :
    delimitedEnd? opening closing (t ++ p.reverse) =
      (delimitedEnd? opening closing t).map fun found => (found.1, p ++ found.2) := by
  obtain ⟨inner, rest, rfl, hinner⟩ :=
    List.eq_append_cons_of_mem (mem_of_isSome_delimitedEnd? h)
  have htake (rest : Text) : (inner ++ opening :: rest).takeWhile (· != opening) = inner :=
    takeWhile_ne_append hinner rest
  simp only [delimitedEnd?, List.append_assoc, List.cons_append, htake, List.drop_left,
    Option.map_some, List.reverse_append, List.reverse_reverse]

/-- The identifier at the end of a text is read without what stands before it. -/
theorem lastIdentifier?_append_of_clear (h : endsName p = false) (hne : w ≠ [])
    (hclear : ∀ c ∈ w.getLast?, Closes c → (lastIdentifier? w).isSome = true) :
    lastIdentifier? (p ++ w) = (lastIdentifier? w).map fun found => (found.1, p ++ found.2) := by
  obtain ⟨front, c, rfl⟩ : ∃ front c, w = front ++ [c] :=
    ⟨_, _, (List.dropLast_append_getLast hne).symm⟩
  have hreverse : (front ++ [c]).reverse = c :: front.reverse := by simp
  have hreverse' : (p ++ (front ++ [c])).reverse = c :: (front.reverse ++ p.reverse) := by simp
  by_cases hc : Closes c
  · have hsome := hclear c (by simp) hc
    rcases hc with rfl | rfl
    · simp only [lastIdentifier?, hreverse, hreverse'] at hsome ⊢
      exact delimitedEnd?_append hsome p
    · simp only [lastIdentifier?, hreverse, hreverse'] at hsome ⊢
      exact delimitedEnd?_append hsome p
  · rw [lastIdentifier?_of_not_closes hc (by simp), lastIdentifier?_of_not_closes hc (by simp),
      nameTail_append_of_not_endsName h]
    split
    · rfl
    · rw [List.length_append, Nat.add_sub_assoc (length_nameTail_le _),
        List.take_length_add_append, Option.map_some]

theorem EndsInName.afterDot?_eq {p' : Text} (h : EndsInName p closing)
    (h' : EndsInName p' closing) (hclear : ∀ head, w = head ++ ['.'] →
      head ≠ [] ∧ ∀ c ∈ head.getLast?, Closes c → (lastIdentifier? head).isSome = true)
    (s : Settings) (typed : Text) : afterDot? s (p ++ w) typed = afterDot? s (p' ++ w) typed := by
  have hnone {p : Text} (hp : EndsInName p closing) (hw : w.getLast? ≠ some '.') :
      afterDot? s (p ++ w) typed = none := by
    apply if_pos
    cases hlast : w.getLast? with
    | none =>
        rw [List.getLast?_eq_none_iff.mp hlast, List.append_nil, hp.getLast?, ne_eq,
          Option.some.injEq]
        obtain ⟨-, -, -, -, rfl | rfl⟩ := hp <;> decide
    | some c =>
        rw [List.getLast?_append, hlast, Option.some_or, ← hlast]
        exact hw
  by_cases hw : w.getLast? = some '.'
  · obtain ⟨head, rfl⟩ := List.getLast?_eq_some_iff.mp hw
    obtain ⟨hne, hlast⟩ := hclear head rfl
    have hdot {p : Text} (hp : EndsInName p closing) : afterDot? s (p ++ (head ++ ['.'])) typed =
        ((lastIdentifier? head).map fun found => (found.1, p ++ found.2)).bind fun found =>
          if !(head.getLast? == some ']' || head.getLast? == some '"') &&
              found.1.head?.any Char.isDigit then none
          else if s.isKnownSchema found.1 || (tableWords? found.2).isSome then
            some (.schema found.1 (Name.unquote typed))
          else some (.aliasColumn found.1) := by
      have hgetLast : (p ++ head).getLast? = head.getLast? := List.getLast?_append_of_ne_nil _ hne
      rw [← List.append_assoc, afterDot?, ← lastIdentifier?_append_of_clear hp.endsName hne hlast]
      simp only [List.getLast?_concat, List.dropLast_concat, hgetLast]
      cases lastIdentifier? (p ++ head) <;> rfl
    rw [hdot h, hdot h']
    cases lastIdentifier? head with
    | none => rfl
    | some found =>
        simp only [Option.map_some, Option.bind_some, h.tableWords?_eq h' found.2]
  · rw [hnone h hw, hnone h' hw]

/-- The word before the cursor is read without the name that stands before it. -/
theorem EndsInName.splitTyped_eq {p' : Text} (h : EndsInName p closing)
    (h' : EndsInName p' closing) (w : Text) :
    (splitTyped (p ++ w)).2 = (splitTyped (p' ++ w)).2 := by
  have hlast {p : Text} (hp : EndsInName p closing) :
      ((p ++ w).take ((p ++ w).length - (nameTail w).length)).getLast? =
        (w.take (w.length - (nameTail w).length)).getLast?.or (some closing) := by
    rw [List.length_append, Nat.add_sub_assoc (length_nameTail_le w), List.take_length_add_append,
      List.getLast?_append, hp.getLast?]
  unfold splitTyped
  simp only [nameTail_append_of_not_endsName h.endsName,
    nameTail_append_of_not_endsName h'.endsName, hlast h, hlast h']
  generalize Option.or _ _ = last
  cases last with
  | none => rfl
  | some c =>
      by_cases hbracket : c = '[' <;> by_cases hquote : c = '"' <;> simp [hbracket, hquote]

end Ends

section Words

variable {s t : Text}

theorem Alike.getLast? (h : Alike s t) : s.getLast? = t.getLast? := by
  have hname (o c : Char) (x s : Text) :
      (o :: (x ++ c :: s)).getLast? = s.getLast?.or (some c) := by
    rw [List.getLast?_cons, List.getLast?_append_of_ne_nil _ (List.cons_ne_nil c s),
      List.getLast?_cons]
    cases s.getLast? <;> rfl
  induction h with
  | nil => rfl
  | cons c _ ih => rw [List.getLast?_cons, List.getLast?_cons, ih]
  | name _ _ _ _ ih => rw [hname, hname, ih]

theorem Alike.isBlank (h : Alike s t) : s.isBlank = t.isBlank := by
  have hname {o : Char} (ho : steers o = true) (s : Text) : Text.isBlank (o :: s) = false := by
    rw [Text.isBlank, List.all_cons, isBlank_of_steers ho, Bool.false_and]
  induction h with
  | nil => rfl
  | cons c _ ih =>
      rw [Text.isBlank, Text.isBlank] at ih ⊢
      rw [List.all_cons, List.all_cons, ih]
  | name delimits =>
      rw [hname (steers_of_delimits delimits).1, hname (steers_of_delimits delimits).1]

theorem lastStatement_cons (c : Char) (s : Text) : lastStatement (c :: s) =
    if ';' ∈ s then lastStatement s else if c = ';' then s else c :: s := by
  split
  · rename_i h
    exact lastStatement_append [c] h
  · rename_i h
    split
    · rename_i hc
      subst hc
      rw [← List.nil_append (';' :: s), lastStatement_append_semicolon, lastStatement_of_not_mem h]
    · rename_i hc
      refine lastStatement_of_not_mem fun hmem => ?_
      rcases List.mem_cons.mp hmem with heq | hmem
      · exact hc heq.symm
      · exact h hmem

theorem Alike.mem_semicolon (h : Alike s t) : ';' ∈ s ↔ ';' ∈ t := by
  have hany := h.any_eq (p := (· == ';')) fun c hc => by
    rw [beq_iff_eq.mp hc]
    decide
  rw [Bool.eq_iff_iff, List.any_beq', List.any_beq', List.contains_iff_mem,
    List.contains_iff_mem] at hany
  exact hany

/-- The semicolons of two texts that are alike stand outside of their names. -/
theorem Alike.lastStatement (h : Alike s t) :
    Alike (Completion.lastStatement s) (Completion.lastStatement t) := by
  induction h with
  | nil => exact .nil
  | @cons c s t rest ih =>
      by_cases hmem : ';' ∈ s
      · rwa [lastStatement_cons, lastStatement_cons, if_pos hmem,
          if_pos (rest.mem_semicolon.mp hmem)]
      · rw [lastStatement_cons, lastStatement_cons, if_neg hmem,
          if_neg (fun ht => hmem (rest.mem_semicolon.mpr ht))]
        split
        · exact rest
        · exact .cons c rest
  | @name opening closing r x y s t delimits left right rest ih =>
      have hall := Alike.name delimits left right rest
      have hname {x : Text} (hx : Quiet x) : ';' ∉ opening :: (x ++ [closing]) := by
        have hsigns : opening ≠ ';' ∧ closing ≠ ';' := by cases delimits <;> decide
        rw [List.mem_cons, List.mem_append, List.mem_singleton]
        rintro (heq | hin | heq)
        · exact hsigns.1 heq.symm
        · exact absurd (hx.signs ';' hin) (by decide)
        · exact hsigns.2 heq.symm
      have hsplit (x s : Text) :
          opening :: (x ++ closing :: s) = opening :: (x ++ [closing]) ++ s := by simp
      by_cases hmem : ';' ∈ s
      · rwa [hsplit x s, hsplit y t, lastStatement_append _ hmem,
          lastStatement_append _ (rest.mem_semicolon.mp hmem)]
      · have hnone : ';' ∉ opening :: (x ++ closing :: s) := by
          rw [hsplit, List.mem_append]
          exact not_or.mpr ⟨hname left.toQuiet, hmem⟩
        rwa [lastStatement_of_not_mem hnone,
          lastStatement_of_not_mem fun ht => hnone (hall.mem_semicolon.mpr ht)]

theorem Context.Agrees.refl (c : Context) : c.Agrees c :=
  ⟨rfl, rfl, rfl⟩

theorem ofUpdate?_eq (words lastWord : Text) : ofUpdate? words lastWord =
    (lastUpdate? words).bind fun head =>
      if hasWord head.rest "WHERE" = false ∧ ((lastWord == "SET".toList && head.rest.isBlank) ||
          (words.getLast? == some ',' && head.rest.any (· == '='))) = true then
        some (.updateColumn head.name?)
      else none := by
  unfold ofUpdate?
  cases lastUpdate? words with
  | none => rfl
  | some head =>
      cases hword : hasWord head.rest "WHERE" with
      | true => simp [hword]
      | false => simp [hword]

theorem Alike.ofUpdate? (h : Alike s t) (lastWord : Text) : Option.Rel Context.Agrees
    (Completion.ofUpdate? s lastWord) (Completion.ofUpdate? t lastWord) := by
  rw [ofUpdate?_eq, ofUpdate?_eq]
  refine h.lastUpdate?.bind fun head head' hrest => ?_
  have hequals : head.rest.any (· == '=') = head'.rest.any (· == '=') :=
    hrest.any_eq fun c hc => by
      rw [beq_iff_eq.mp hc]
      decide
  rw [hrest.hasWord_where, hrest.isBlank, hequals, h.getLast?]
  split
  · exact .some ⟨rfl, rfl, rfl⟩
  · exact .none

/-- Behind words that are alike and end with the same word, contexts differ in no more than their
names. -/
theorem Alike.ofWords (h : Alike s.trimEnd t.trimEnd)
    (hlast : (splitTyped s.trimEnd).2 = (splitTyped t.trimEnd).2) :
    (Completion.ofWords s).Agrees (Completion.ofWords t) := by
  have htarget : Option.Rel Context.Agrees
      (((Completion.firstInsert? s.trimEnd).map fun head => Context.insertColumn head.name?).or
        (Completion.ofUpdate? s.trimEnd (asciiUpper (splitTyped s.trimEnd).2)))
      (((Completion.firstInsert? t.trimEnd).map fun head => Context.insertColumn head.name?).or
        (Completion.ofUpdate? t.trimEnd (asciiUpper (splitTyped t.trimEnd).2))) := by
    rw [hlast]
    exact (h.firstInsert?.map fun _ _ _ => ⟨rfl, rfl, rfl⟩).or (h.ofUpdate? _)
  unfold Completion.ofWords
  simp only [h.getLast?, hlast, h.lastClause?, h.endsInCte] at htarget ⊢
  cases t.trimEnd.getLast? with
  | none => exact .refl _
  | some last =>
      revert htarget
      generalize Option.or _ _ = a, Option.or _ _ = b
      rintro (⟨hab⟩ | -)
      · exact hab
      · exact .refl _

end Words

section Names

variable {a b p : Text}

theorem upperWords_append (h : (endsName a && beginsName b) = false) :
    upperWords (a ++ b) = upperWords a ++ upperWords b := by
  rw [upperWords_eq, upperWords_eq, upperWords_eq, names_append h, List.map_append]

/-- The words of a quiet name come between the word before it and the word that opens a clause
together with it. -/
theorem QuietBefore.append_name {opening closing : Char} {r : Region} {s x y w : Text}
    (h : QuietBefore s x) (delimits : Delimits opening closing r) (hy : QuietBefore w y) :
    QuietBefore (s ++ opening :: (y ++ closing :: w)) x := by
  refine ⟨h.toQuiet, fun hby => h.unpaired ?_⟩
  have hopening := isName_of_steers (steers_of_delimits delimits).1
  have hbegins : beginsName (opening :: (y ++ closing :: w)) = false := hopening
  rw [upperWords_append (by rw [hbegins, Bool.and_false])] at hby
  cases hwords : Completion.upperWords s with
  | cons word more =>
      rw [hwords] at hby
      exact hby
  | nil =>
      exfalso
      have hsplit : opening :: (y ++ closing :: w) = [opening] ++ (y ++ closing :: w) := rfl
      have hbehind : beginsName (closing :: w) = false :=
        isName_of_steers (steers_of_delimits delimits).2
      have hsingle : Completion.upperWords [opening] = [] := by
        rw [upperWords_eq, names_cons_of_not_isName hopening]
        rfl
      rw [hwords, List.nil_append, hsplit,
        upperWords_append (by rw [endsName_singleton, hopening, Bool.false_and]), hsingle,
        List.nil_append, upperWords_append (by rw [hbehind, Bool.and_false]),
        List.head?_append_of_ne_nil _ hy.upperWords.ne_nil] at hby
      have hnone := hy.upperWords.open_none _ (List.mem_of_head? hby)
      exact absurd hnone (by decide)

theorem Alike.append_name {opening closing : Char} {r : Region} {s t x y w w' : Text}
    (h : Alike s t) (delimits : Delimits opening closing r) (left : QuietBefore w x)
    (right : QuietBefore w' y) (h' : Alike w w') :
    Alike (s ++ opening :: (x ++ closing :: w)) (t ++ opening :: (y ++ closing :: w')) := by
  induction h with
  | nil => exact .name delimits left right h'
  | cons c _ ih => exact .cons c ih
  | name delimits' left' right' _ ih =>
      rw [List.cons_append, List.append_assoc, List.cons_append, List.cons_append,
        List.append_assoc, List.cons_append]
      exact .name delimits' (left'.append_name delimits left) (right'.append_name delimits right) ih

/-- Behind code a name is scanned as by itself, unless a sign in front of it doubles its own. -/
theorem mask_append_name {opening closing : Char} {r : Region} {x tail : Text}
    (hcode : a.endRegion = .code) (hapart : a.getLast? ≠ some opening)
    (delimits : Delimits opening closing r) (hx : closing ∉ x)
    (hclosed : tail.head? ≠ some closing) :
    (a ++ opening :: (x ++ closing :: tail)).mask .literals =
        a.mask .literals ++ opening :: (x ++ closing :: tail.mask .literals) ∧
      (a ++ opening :: (x ++ closing :: tail)).endRegion = tail.endRegion := by
  have hstraddled : ¬Straddled a (opening :: (x ++ closing :: tail)) := by
    rintro ⟨⟨c, r'⟩, hc, d, hd, hpair⟩
    obtain rfl := Option.some.inj hd
    have hlast : a.getLast? = some c := by
      rw [← map_fst_regions a, List.getLast?_map, Option.mem_def.mp hc]
      rfl
    have hopening : opening ≠ '-' ∧ opening ≠ '*' := by cases delimits <;> decide
    rcases hpair with ⟨-, hd⟩ | ⟨-, hd⟩ | ⟨-, hd⟩
    · exact hopening.1 hd
    · exact hopening.2 hd
    · exact hapart (hlast.trans (congrArg some hd))
  obtain ⟨hmask, hend⟩ := mask_append_of_not_straddled hcode hstraddled
  rw [hmask, hend, mask_delimited delimits hx hclosed (by decide),
    endRegion_delimited delimits hx hclosed]
  exact ⟨rfl, rfl⟩

/-- Texts that differ in quiet names end alike, and their masks are alike. -/
theorem DiffersInNames.alike (h : DiffersInNames QuietIn a b p) : a.endRegion = b.endRegion ∧
    a.getLast? = b.getLast? ∧ Alike (a.mask .literals) (b.mask .literals) := by
  induction h with
  | same p => exact ⟨rfl, rfl, .refl _⟩
  | name front code apart delimits left right closed ih =>
      obtain ⟨hregion, hlast, halike⟩ := ih
      obtain ⟨hmask, hend⟩ := mask_append_name code apart delimits left.1 closed
      obtain ⟨hmask', hend'⟩ :=
        mask_append_name (hregion ▸ code) (hlast ▸ apart) delimits right.1 closed
      refine ⟨hend.trans hend'.symm, ?_, ?_⟩
      · simp only [List.getLast?_append, List.getLast?_cons, Option.some_or, Option.getD_some]
      · rw [hmask, hmask']
        exact halike.append_name delimits left.2 right.2 (.refl _)

theorem endsInName_append_name {opening closing : Char} {r : Region} {x : Text}
    (delimits : Delimits opening closing r) (hx : Quiet x) (a : Text) :
    EndsInName (a ++ opening :: (x ++ [closing])) closing := by
  obtain ⟨front, c, rfl⟩ : ∃ front c, x = front ++ [c] :=
    ⟨_, _, (List.dropLast_append_getLast hx.ne_nil).symm⟩
  exact ⟨a ++ opening :: front, c, by simp, hx.tame.ends c List.getLast?_concat,
    closes_of_delimits delimits⟩

theorem EndsInName.lastStatement {closing : Char} (h : EndsInName p closing) :
    EndsInName (Completion.lastStatement p) closing := by
  obtain ⟨front, c, rfl, hc, hcloses⟩ := h
  refine ⟨Completion.lastStatement front, c, ?_, hc, hcloses⟩
  apply lastStatement_append_of_not_mem
  intro hmem
  rcases List.mem_pair.mp hmem with rfl | rfl
  · exact absurd hc (by decide)
  · rcases hcloses with hcloses | hcloses <;> exact absurd hcloses (by decide)

/-- What stands before the word that is being typed, without the blanks at its end. -/
def typedAfter (t : Text) : Text :=
  trimEnd (splitTyped t).1

theorem dropEndWhile_append_nameTail (t : Text) :
    t.dropEndWhile CharClass.isName ++ nameTail t = t := by
  rw [dropEndWhile_eq_rdropWhile]
  exact List.rdropWhile_append_rtakeWhile

/-- What stands before the name at the end of a text. -/
theorem take_sub_length_nameTail (t : Text) :
    t.take (t.length - (nameTail t).length) = t.dropEndWhile CharClass.isName := by
  have happend := dropEndWhile_append_nameTail t
  have hlength := congrArg List.length happend
  rw [List.length_append] at hlength
  rw [← hlength, Nat.add_sub_cancel]
  calc t.take (t.dropEndWhile CharClass.isName).length
    _ = (t.dropEndWhile CharClass.isName ++ nameTail t).take
          (t.dropEndWhile CharClass.isName).length := by rw [happend]
    _ = t.dropEndWhile CharClass.isName := List.take_left

/-- No name goes on where the word that is being typed is cut off. -/
theorem exists_append_splitTyped (t : Text) : ∃ v, t = (splitTyped t).1 ++ v ∧
    (endsName (splitTyped t).1 && beginsName v) = false := by
  have happend := dropEndWhile_append_nameTail t
  have hopened {c : Char} (hlast : (t.dropEndWhile CharClass.isName).getLast? = some c) :
      t = (t.dropEndWhile CharClass.isName).dropLast ++ c :: nameTail t := by
    obtain ⟨front, hfront⟩ := List.getLast?_eq_some_iff.mp hlast
    rw [hfront, List.dropLast_concat]
    rw [hfront, List.append_assoc] at happend
    exact happend.symm
  have hbegins {c : Char} (hc : steers c = true) (rest : Text) :
      beginsName (c :: rest) = false := isName_of_steers hc
  unfold splitTyped
  simp only [take_sub_length_nameTail]
  split
  · exact ⟨_, hopened ‹_›, by rw [hbegins (by decide), Bool.and_false]⟩
  · exact ⟨_, hopened ‹_›, by rw [hbegins (by decide), Bool.and_false]⟩
  · refine ⟨nameTail t, happend.symm, ?_⟩
    rw [endsName_eq_false_iff.mpr fun c hc => dropEndWhile_getLast? _ _ hc, Bool.false_and]

/-- No name goes on where the word that is being typed, and the blanks before it, are cut off. -/
theorem exists_append_typedAfter (t : Text) : ∃ v, t = typedAfter t ++ v ∧
    (endsName (typedAfter t) && beginsName v) = false := by
  obtain ⟨v, hsplit, hseam⟩ := exists_append_splitTyped t
  obtain ⟨gap, htrim, hgap⟩ := exists_dropEndWhile CharClass.isBlank (splitTyped t).1
  refine ⟨gap ++ v, by rw [typedAfter, trimEnd, ← List.append_assoc, ← htrim, ← hsplit], ?_⟩
  cases gap with
  | nil =>
      rw [List.append_nil] at htrim
      rwa [typedAfter, trimEnd, ← htrim]
  | cons c gap =>
      have hc : beginsName (c :: (gap ++ v)) = false :=
        isName_of_isBlank (hgap c List.mem_cons_self)
      rw [List.cons_append, hc, Bool.and_false]

theorem QuietBefore.typedAfter {t x : Text} (h : QuietBefore t x) :
    QuietBefore (typedAfter t) x := by
  refine ⟨h.toQuiet, fun hby => h.unpaired ?_⟩
  obtain ⟨v, hsplit, hseam⟩ := exists_append_typedAfter t
  rw [hsplit, upperWords_append hseam, List.head?_append, hby, Option.some_or]

/-- What belongs behind words that end alike, clear of the names in which they differ. -/
theorem agrees_of_alike (e : Engine) {p' w : Text} {closing : Char}
    (hends : a.endsInLiteralOrComment = b.endsInLiteralOrComment)
    (halike : Alike (p ++ typedAfter w) (p' ++ typedAfter w)) (h : EndsInName p closing)
    (h' : EndsInName p' closing) (hclear : StandsClear w) (hwords : currentWords a = p ++ w)
    (hwords' : currentWords b = p' ++ w) : (classify e a none).Agrees (classify e b none) := by
  by_cases hopen : a.endsInLiteralOrComment = true
  · simp only [classify, hopen, ← hends, if_true]
    exact .refl _
  · rw [Bool.not_eq_true] at hopen
    have hsplit := splitTyped_append_of_typed h.endsName hclear.typed
    have hsplit' := splitTyped_append_of_typed h'.endsName hclear.typed
    rw [← hwords] at hsplit
    rw [← hwords'] at hsplit'
    rw [classify_eq e hopen hsplit, classify_eq e (hends ▸ hopen) hsplit',
      h.afterDot?_eq h' hclear.dotted, h.tableWords?_eq h']
    generalize Option.or _ _ = decided
    cases decided with
    | some context => exact .refl _
    | none =>
        refine Alike.ofWords ?_ ?_
        · rwa [h.trimEnd_append, h'.trimEnd_append]
        · rw [h.trimEnd_append, h'.trimEnd_append]
          exact h.splitTyped_eq h' _

/-- What stands between the delimiters of closed quiet names does not steer what belongs at the
cursor: texts that differ in no more have contexts of the same kind, after the same words, in the
body of a common table expression or not, if the last of these names ends before a semicolon or
touches neither the word that is being typed nor the identifier before a dot in front of it. -/
theorem classify_agrees_of_differsInNames (e : Engine) (h : DiffersInNames QuietIn a b p)
    (hclear : ';' ∈ p.mask .literals ∨ StandsClear (p.mask .literals)) :
    (classify e a none).Agrees (classify e b none) := by
  have hends := endsInLiteralOrComment_congr h.alike.1
  cases h with
  | same => exact .refl _
  | @name a b q x y _ opening closing r front code apart delimits left right closed =>
      obtain ⟨hregion, hlast, halike⟩ := front.alike
      obtain ⟨hmask, -⟩ := mask_append_name code apart delimits left.1 closed
      obtain ⟨hmask', -⟩ :=
        mask_append_name (hregion ▸ code) (hlast ▸ apart) delimits right.1 closed
      have hleft : QuietBefore (p.mask .literals) x := left.2
      have hright : QuietBefore (p.mask .literals) y := right.2
      generalize mask .literals p = w at hmask hmask' hclear hleft hright
      have hsplit (a x w : Text) : a ++ opening :: (x ++ closing :: w) =
          (a ++ opening :: (x ++ [closing])) ++ w := by simp
      replace hmask := hmask.trans (hsplit _ x w)
      replace hmask' := hmask'.trans (hsplit _ y w)
      by_cases hmem : ';' ∈ w
      · rw [classify_congr e hends (by rw [hmask, hmask', lastStatement_append _ hmem,
          lastStatement_append _ hmem])]
        exact .refl _
      · have hwhole := halike.append_name delimits hleft.typedAfter hright.typedAfter (.refl _)
        have hnone : ';' ∉ typedAfter w := by
          obtain ⟨v, hv, -⟩ := exists_append_typedAfter w
          rw [hv, List.mem_append] at hmem
          exact fun hin => hmem (Or.inl hin)
        rw [hsplit _ x, hsplit _ y] at hwhole
        have hlastStatement := hwhole.lastStatement
        rw [lastStatement_append_of_not_mem _ hnone, lastStatement_append_of_not_mem _ hnone]
          at hlastStatement
        refine agrees_of_alike e hends hlastStatement
          (endsInName_append_name delimits hleft.toQuiet _).lastStatement
          (endsInName_append_name delimits hright.toQuiet _).lastStatement
          (hclear.resolve_left hmem) ?_ ?_
        · rw [currentWords, hmask, lastStatement_append_of_not_mem _ hmem]
        · rw [currentWords, hmask', lastStatement_append_of_not_mem _ hmem]

/-- In the second text both names need delimiters, for they are words of the language. -/
theorem classify_agrees_of_differsInNames_cte : ∃ a b p : Text,
    a = "WITH [c] AS (SELECT \"a b\", ".toList ∧
      b = "WITH [Order] AS (SELECT \"Group\", ".toList ∧
      DiffersInNames QuietIn a b p ∧ StandsClear (p.mask .literals) ∧
      (classify ⟨fun _ _ => .ok [], {}⟩ a none).Agrees (classify ⟨fun _ _ => .ok [], {}⟩ b none) ∧
      classify ⟨fun _ _ => .ok [], {}⟩ b none = .column (some "SELECT".toList) true := by
  have hquiet {x tail : Text} (ends : endsName x = true) (signs : ∀ c ∈ x, steers c = false)
      (words : ∀ word ∈ structureWords, holdsWord word x = false)
      (hby : (upperWords (tail.mask .literals)).head? ≠ some "BY".toList) : QuietIn x tail :=
    ⟨⟨ends, signs, words⟩, fun h => absurd h hby⟩
  have hfirst : DiffersInNames QuietIn "WITH [c] AS (SELECT ".toList
      "WITH [Order] AS (SELECT ".toList " AS (SELECT ".toList := by
    refine .name (x := "c".toList) (y := "Order".toList) (.same "WITH ".toList) ?_ ?_ .brackets
      ⟨?_, hquiet ?_ ?_ ?_ ?_⟩ ⟨?_, hquiet ?_ ?_ ?_ ?_⟩ ?_
    all_goals decide
  have hdiffers : DiffersInNames QuietIn "WITH [c] AS (SELECT \"a b\", ".toList
      "WITH [Order] AS (SELECT \"Group\", ".toList ", ".toList := by
    refine .name (x := "a b".toList) (y := "Group".toList) hfirst ?_ ?_ .quotes
      ⟨?_, hquiet ?_ ?_ ?_ ?_⟩ ⟨?_, hquiet ?_ ?_ ?_ ?_⟩ ?_
    all_goals decide
  have hclear : StandsClear (mask .literals ", ".toList) := by
    refine ⟨⟨',', by decide, by decide⟩, fun head hhead => ?_⟩
    have hlast := congrArg List.getLast? hhead
    rw [List.getLast?_concat] at hlast
    exact absurd hlast (by decide)
  refine ⟨_, _, _, rfl, rfl, hdiffers, hclear, ?_, by decide⟩
  exact classify_agrees_of_differsInNames _ hdiffers (Or.inr hclear)

/-- A semicolon in brackets is taken for the end of a statement. -/
theorem classify_steered_by_semicolon : ∃ a b p : Text,
    a = "SELECT [a;b], ".toList ∧ b = "SELECT [a_b], ".toList ∧
      DiffersInNames (fun _ _ => True) a b p ∧ StandsClear (p.mask .literals) ∧
      ¬(classify ⟨fun _ _ => .ok [], {}⟩ a none).Agrees
        (classify ⟨fun _ _ => .ok [], {}⟩ b none) := by
  have hdiffers : DiffersInNames (fun _ _ => True) "SELECT [a;b], ".toList
      "SELECT [a_b], ".toList ", ".toList := by
    refine .name (x := "a;b".toList) (y := "a_b".toList) (.same "SELECT ".toList) ?_ ?_ .brackets
      ⟨?_, trivial⟩ ⟨?_, trivial⟩ ?_
    all_goals decide
  refine ⟨_, _, _, rfl, rfl, hdiffers, ⟨⟨',', by decide, by decide⟩, ?_⟩, ?_⟩
  · intro head hhead
    have hlast := congrArg List.getLast? hhead
    rw [List.getLast?_concat] at hlast
    exact absurd hlast (by decide)
  · intro hagrees
    exact absurd hagrees.lastKeyword (by decide)

end Names

end Completion

end SqlInsight
