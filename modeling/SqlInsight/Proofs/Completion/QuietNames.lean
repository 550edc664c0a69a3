/-
Texts that differ only between the delimiters of their names. What stands between delimiters is
read like any other part of a text by all patterns but the one for an identifier, so it can steer
what a pattern finds. Quiet names are those that hold nothing a pattern could go by. Texts that
differ in quiet names only are read in lockstep: whatever is taken off the start of both leaves
texts that again differ in quiet names only, or it ends between the delimiters of a name in both.
-/
import SqlInsight.Completion.Clause
import SqlInsight.Proofs.Text.Code
import SqlInsight.Proofs.Text.Matches
import SqlInsight.Proofs.Text.Names

namespace SqlInsight

open Text

namespace Completion

/-- The signs that patterns go by outside of names. -/
def steers (c : Char) : Bool :=
  ";()=[]\"".toList.contains c

/-- The words that patterns go by, but for those that the others come with. -/
def structureWords : List String :=
  clauseWords ++ ["BY", "WITH"]

/-- Whether a word may end at a character, or at the end of a text. -/
def endsWords (c : Option Char) : Bool :=
  !c.any fun d => CharClass.isName d && CharClass.isWord d

/-- What follows a word, in any case, that begins a text after `before` and may end there. -/
def wordStart? (word : String) (before : Option Char) (t : Text) : Option Text :=
  if endsWords before then
    (afterWord? (asciiLower word.toList) t).filter fun rest => endsWords rest.head?
  else none

/-- Whether a word stands in a text, by any account of where words end. -/
def holdsWord (word : String) (t : Text) : Bool :=
  (firstMatch? (wordStart? word) none t).isSome

/-- Whether what stands between delimiters is a name that no pattern goes by: it ends with a
character of a name and holds no sign and no word that patterns go by. -/
structure Quiet (x : Text) : Prop where
  ends : endsName x = true
  signs : ∀ c ∈ x, steers c = false
  words : ∀ word ∈ structureWords, holdsWord word x = false

/-- Whether a name is quiet in front of a text: it does not end with a word that opens a clause
together with the next one. -/
structure QuietBefore (s x : Text) : Prop extends Quiet x where
  unpaired : (upperWords s).head? = some "BY".toList →
    ∀ word ∈ (upperWords x).getLast?, among pairWords word = false

/-- Texts that differ only in the characters of quiet names. -/
inductive Alike : Text → Text → Prop where
  | nil : Alike [] []
  | cons (c : Char) {s t : Text} (rest : Alike s t) : Alike (c :: s) (c :: t)
  | name {opening closing : Char} {r : Region} {x y s t : Text}
      (delimits : Delimits opening closing r) (left : QuietBefore s x) (right : QuietBefore t y)
      (rest : Alike s t) : Alike (opening :: (x ++ closing :: s)) (opening :: (y ++ closing :: t))

/-- What any end of a quiet name is like: it is empty or ends with a character of a name, holds no
sign that patterns go by, and not the word after which columns are set behind a blank. -/
structure Tame (x : Text) : Prop where
  ends : ∀ c ∈ x.getLast?, CharClass.isName c = true
  signs : ∀ c ∈ x, steers c = false
  unset : ∀ u c v rest, x = u ++ c :: v → CharClass.isBlank c = true →
    afterWord? "set".toList v = some rest → endsWord rest = false

/-- A character that closes a name. -/
def Closes (c : Char) : Prop :=
  c = ']' ∨ c = '"'

/-- A text that begins within a quiet name. -/
inductive Inside : Text → Prop where
  | intro {x : Text} {c : Char} (tame : Tame x) (closes : Closes c) (s : Text) :
      Inside (x ++ c :: s)

/-- Where two texts are read in lockstep: they differ in quiet names only, or both begin within
one. -/
inductive Together : Text → Text → Prop where
  | alike {s t : Text} (h : Alike s t) : Together s t
  | inside {s t : Text} (left : Inside s) (right : Inside t) : Together s t

section Signs

variable {c : Char}

theorem steers_of_delimits {opening closing : Char} {r : Region} (h : Delimits opening closing r) :
    steers opening = true ∧ steers closing = true := by
  cases h <;> decide

theorem Closes.steers (h : Closes c) : Completion.steers c = true := by
  rcases h with rfl | rfl <;> decide

theorem closes_of_delimits {opening closing : Char} {r : Region}
    (h : Delimits opening closing r) : Closes closing := by
  cases h
  · exact Or.inl rfl
  · exact Or.inr rfl

/-- What patterns go by stands between words and names. -/
theorem of_steers {p : Char → Bool} (hp : ∀ d ∈ ";()=[]\"".toList, p d = false)
    (h : steers c = true) : p c = false :=
  hp c (List.contains_iff_mem.mp h)

theorem isBlank_of_steers (h : steers c = true) : CharClass.isBlank c = false :=
  of_steers (by decide) h

theorem isName_of_steers (h : steers c = true) : CharClass.isName c = false :=
  of_steers (by decide) h

theorem isWord_of_steers (h : steers c = true) : CharClass.isWord c = false :=
  of_steers (by decide) h

theorem continuesIdentifier_of_steers (h : steers c = true) : continuesIdentifier c = false :=
  of_steers (by decide) h

theorem beginsIdentifier_of_steers (h : steers c = true) : beginsIdentifier c = false :=
  of_steers (by decide) h

theorem isLetter_of_steers {letter : Char} (hletter : CharClass.isWord letter = true)
    (h : steers c = true) : isLetter letter c = false := by
  rw [Bool.eq_false_iff]
  intro hc
  have hword := isWord_of_isLetter hletter hc
  rw [isWord_of_steers h] at hword
  contradiction

end Signs

section Stops

variable {x : Text} {c : Char} {s : Text}

theorem holdsWord_of_append (word : String) {u v rest : Text} (hu : endsWords u.getLast? = true)
    (hword : afterWord? (asciiLower word.toList) v = some rest)
    (hrest : endsWords rest.head? = true) : holdsWord word (u ++ v) = true := by
  rw [holdsWord, isSome_firstMatch?_iff]
  refine ⟨u, v, rfl, ?_⟩
  rw [Option.or_none, wordStart?, if_pos hu, hword, Option.filter_some, if_pos hrest]
  rfl

theorem endsWords_of_not_isName {o : Option Char} (h : ∀ d ∈ o, CharClass.isName d = false) :
    endsWords o = true := by
  cases o with
  | none => rfl
  | some d => simp [endsWords, h d rfl]

theorem endsWords_of_not_isWord {o : Option Char} (h : ∀ d ∈ o, CharClass.isWord d = false) :
    endsWords o = true := by
  cases o with
  | none => rfl
  | some d => simp [endsWords, h d rfl]

theorem Tame.of_isSuffix {v : Text} (h : Tame x) (hv : v <:+ x) : Tame v := by
  obtain ⟨u, rfl⟩ := hv
  refine ⟨fun c hc => h.ends c ?_, fun c hc => h.signs c (List.mem_append_right u hc), ?_⟩
  · have hne : v ≠ [] := by
      rintro rfl
      contradiction
    rwa [List.getLast?_append_of_ne_nil _ hne]
  · rintro a d w rest rfl hd hword
    exact h.unset (u ++ a) d w rest (by rw [List.append_assoc]) hd hword

theorem Quiet.ne_nil (h : Quiet x) : x ≠ [] := by
  rintro rfl
  exact absurd h.ends (by decide)

theorem Quiet.tame (h : Quiet x) : Tame x := by
  refine ⟨fun c hc => ?_, h.signs, ?_⟩
  · obtain ⟨front, rfl⟩ := List.getLast?_eq_some_iff.mp hc
    rw [← endsName_singleton c, ← h.ends, endsName_append (List.cons_ne_nil c [])]
  · rintro u c v rest rfl hc hword
    rw [Bool.eq_false_iff]
    intro hends
    have hbefore : endsWords (u ++ [c]).getLast? = true := by
      apply endsWords_of_not_isName
      intro d hd
      rw [List.getLast?_concat, Option.mem_some_iff] at hd
      exact hd ▸ isName_of_isBlank hc
    have hbehind : endsWords rest.head? = true := by
      apply endsWords_of_not_isWord
      intro d hd
      simpa [endsWord, Option.mem_def.mp hd] using hends
    have hset : holdsWord "SET" (u ++ [c] ++ v) = true :=
      holdsWord_of_append "SET" hbefore hword hbehind
    rw [List.append_assoc, List.singleton_append, h.words "SET" (by decide)] at hset
    contradiction

theorem Inside.of_isSuffix {v : Text} (h : Tame x) (hv : v <:+ x) (hc : Closes c) (s : Text) :
    Inside (v ++ c :: s) :=
  .intro (h.of_isSuffix hv) hc s

/-- What follows blanks follows a last one. -/
theorem exists_of_afterBlanks? {t rest : Text} (h : afterBlanks? t = some rest) :
    ∃ u c, t = u ++ c :: rest ∧ CharClass.isBlank c = true := by
  unfold afterBlanks? at h
  split at h
  · rename_i hblank
    obtain rfl := Option.some.inj h
    obtain ⟨before, hsplit, hall⟩ := exists_blanks_append_trimStart t
    rcases List.eq_nil_or_concat before with rfl | ⟨u, c, rfl⟩
    · have hhead := List.head?_dropWhile_not CharClass.isBlank t
      rw [List.nil_append] at hsplit
      rw [← trimStart, ← hsplit] at hhead
      cases hcase : t.head? with
      | none => simp [hcase] at hblank
      | some c =>
          rw [hcase] at hblank hhead
          simp only [Option.any_some] at hblank
          simp [hblank] at hhead
    · rw [List.concat_eq_append] at hsplit hall
      exact ⟨u, c, by simpa using hsplit, hall c (by simp)⟩
  · contradiction

/-- What is found in a stretch without delimiters stays in it. -/
theorem identifier?_append_stop (hx : ∀ d ∈ x, steers d = false) (hne : x ≠ [])
    (hc : steers c = true) (s : Text) :
    identifier? (x ++ c :: s) = (identifier? x).map fun found => (found.1, found.2 ++ c :: s) := by
  cases x with
  | nil => contradiction
  | cons d x =>
      have hd := hx d List.mem_cons_self
      have hbracket : d ≠ '[' := by
        rintro rfl
        exact absurd hd (by decide)
      have hquote : d ≠ '"' := by
        rintro rfl
        exact absurd hd (by decide)
      have hstop := continuesIdentifier_of_steers hc
      rw [List.cons_append, identifier?, if_neg hbracket, if_neg hquote, identifier?,
        if_neg hbracket, if_neg hquote]
      simp only [drop_length_takeWhile]
      rw [takeWhile_append_cons hstop, dropWhile_append_stop hstop]
      split <;> rfl

theorem identifier?_isSuffix {t : Text} {found : Text × Text} (h : identifier? t = some found) :
    found.2 <:+ t := by
  replace h : identifier? t = some (found.1, found.2) := h
  rw [(eq_append_of_identifier? h).1]
  exact List.suffix_append _ _

theorem Tame.trimStart_ne_nil (h : Tame x) (hne : x ≠ []) : trimStart x ≠ [] := by
  intro hnil
  have hall := List.dropWhile_eq_nil_iff.mp hnil
  obtain ⟨c, hc⟩ : ∃ c, x.getLast? = some c := ⟨_, List.getLast?_eq_some_getLast hne⟩
  have hblank := hall c (List.mem_of_getLast? hc)
  rw [isBlank_of_isName (h.ends c hc)] at hblank
  contradiction

theorem head?_trimStart_ne (h : Tame x) (hc : Closes c) (s : Text) {d : Char}
    (hd : steers d = true) (hne : d ≠ c) : (trimStart (x ++ c :: s)).head? ≠ some d := by
  rw [trimStart_append_stop (isBlank_of_steers hc.steers)]
  cases hx : trimStart x with
  | nil => simpa using hne.symm
  | cons e rest =>
      have he := h.signs e ((trimStart_isSuffix x).subset (hx ▸ List.mem_cons_self))
      rw [List.cons_append, List.head?_cons, ne_eq, Option.some.injEq]
      rintro rfl
      rw [hd] at he
      contradiction

end Stops

section Inside

variable {t : Text}

/-- What follows a parenthesis at the start of a text. -/
def opened? : Text → Option Text
  | '(' :: rest => some rest
  | _ => none

theorem bodyAfter?_eq (t : Text) : References.bodyAfter? t =
    (Text.afterWord? "as".toList t.trimStart).bind fun rest => opened? rest.trimStart := by
  unfold References.bodyAfter?
  cases Text.afterWord? "as".toList t.trimStart <;> rfl

theorem cteAfterName?_eq (name t : Text) : References.cteAfterName? name t =
    ((opened? t.trimStart).bind fun inside => (Text.afterFirst? ')' inside).bind fun rest =>
      (References.bodyAfter? rest).map fun body =>
        (⟨name, some (inside.takeWhile (· != ')')), body⟩ : References.CteHead)).or
      ((References.bodyAfter? t).map fun body => ⟨name, none, body⟩) := by
  unfold References.cteAfterName? opened?
  cases t.trimStart with
  | nil => rfl
  | cons c inside =>
      by_cases hc : c = '('
      · subst hc
        rfl
      · simp [hc]

theorem openColumns?_eq (t : Text) : openColumns? t = (opened? t.trimStart).bind fun rest =>
    if rest.any fun c => c == '(' || c == ')' then none else some rest := by
  unfold openColumns? opened?
  cases t.trimStart with
  | nil => rfl
  | cons c inside =>
      by_cases hc : c = '('
      · subst hc
        rfl
      · simp [hc]

/-- Within a quiet name no parenthesis comes next. -/
theorem Inside.head?_trimStart (h : Inside t) : t.trimStart.head? ≠ some '(' := by
  obtain ⟨hx, hc, s⟩ := h
  refine head?_trimStart_ne hx hc s (by decide) ?_
  rintro rfl
  rcases hc with hc | hc <;> exact absurd hc (by decide)

theorem Inside.trimStart (h : Inside t) : Inside t.trimStart := by
  obtain ⟨hx, hc, s⟩ := h
  rw [trimStart_append_stop (isBlank_of_steers hc.steers)]
  exact .intro (hx.of_isSuffix (trimStart_isSuffix _)) hc s

theorem Inside.afterWord? (h : Inside t) {word rest : Text}
    (hword : ∀ letter ∈ word, CharClass.isWord letter = true)
    (hrest : Text.afterWord? word t = some rest) : Inside rest := by
  obtain ⟨hx, hc, s⟩ := h
  rw [afterWord?_append_stop fun letter hletter =>
    isLetter_of_steers (hword letter hletter) hc.steers, Option.map_eq_some_iff] at hrest
  obtain ⟨v, hv, rfl⟩ := hrest
  exact .intro (hx.of_isSuffix (afterWord?_isSuffix hv)) hc s

/-- Within a quiet name there is more of it behind blanks. -/
theorem Inside.afterBlanks? (h : Inside t) {rest : Text} (hrest : Text.afterBlanks? t = some rest) :
    ∃ (x : Text) (c : Char) (s : Text), rest = x ++ c :: s ∧ Tame x ∧ Closes c ∧ x ≠ [] := by
  obtain ⟨hx, hc, s⟩ := h
  rw [afterBlanks?_append_stop (isBlank_of_steers hc.steers), Option.map_eq_some_iff] at hrest
  obtain ⟨v, hv, rfl⟩ := hrest
  refine ⟨v, _, s, rfl, hx.of_isSuffix (afterBlanks?_isSuffix hv), hc, ?_⟩
  rintro rfl
  obtain ⟨u, d, rfl, hd⟩ := exists_of_afterBlanks? hv
  have hends := hx.ends d (by simp)
  rw [isName_of_isBlank hd] at hends
  contradiction

theorem inside_identifier? {x : Text} {c : Char} (hx : Tame x) (hne : x ≠ []) (hc : Closes c)
    (s : Text) {found : Text × Text} (h : identifier? (x ++ c :: s) = some found) :
    Inside found.2 := by
  rw [identifier?_append_stop hx.signs hne hc.steers, Option.map_eq_some_iff] at h
  obtain ⟨inner, hinner, rfl⟩ := h
  exact .intro (hx.of_isSuffix (identifier?_isSuffix hinner)) hc s

theorem Inside.opened? (h : Inside t) : Completion.opened? t.trimStart = none := by
  have hhead := h.head?_trimStart
  generalize t.trimStart = u at hhead
  cases u with
  | nil => rfl
  | cons c rest =>
      rw [List.head?_cons, ne_eq, Option.some.injEq] at hhead
      simp [Completion.opened?, hhead]

theorem Inside.bodyAfter? (h : Inside t) : References.bodyAfter? t = none := by
  rw [bodyAfter?_eq, Option.bind_eq_none_iff]
  intro rest hrest
  exact (h.trimStart.afterWord? (by decide) hrest).opened?

theorem Inside.cteAfterName? (h : Inside t) (name : Text) :
    References.cteAfterName? name t = none := by
  rw [cteAfterName?_eq, h.opened?, h.bodyAfter?]
  rfl

theorem Inside.openColumns? (h : Inside t) : Completion.openColumns? t = none := by
  rw [openColumns?_eq, h.opened?]
  rfl

/-- Within a quiet name no columns are set. -/
theorem Inside.afterSet? (h : Inside t) : Completion.afterSet? t = none := by
  obtain ⟨hx, hc, s⟩ := h
  unfold Completion.afterSet?
  rw [afterBlanks?_append_stop (isBlank_of_steers hc.steers)]
  cases hblanks : Text.afterBlanks? _ with
  | none => rfl
  | some v =>
      have hstop : ∀ letter ∈ "set".toList, isLetter letter _ = false :=
        fun letter hletter => isLetter_of_steers (by revert letter; decide) hc.steers
      rw [Option.map_some, Option.bind_some, afterWord?_append_stop hstop]
      cases hword : Text.afterWord? "set".toList v with
      | none => rfl
      | some rest =>
          obtain ⟨u, d, rfl, hd⟩ := exists_of_afterBlanks? hblanks
          have hunset := hx.unset u d v rest rfl hd hword
          obtain ⟨e, more, rfl⟩ : ∃ e more, rest = e :: more := by
            apply List.exists_cons_of_ne_nil
            rintro rfl
            contradiction
          exact Option.filter_some_neg (by simpa [endsWord] using hunset)

/-- Behind a dot within a quiet name there is more of it. -/
theorem Inside.behindDot (h : Inside t) {rest : Text} (hdot : t.trimStart = '.' :: rest) :
    ∃ (x : Text) (c : Char) (s : Text), Text.trimStart rest = x ++ c :: s ∧ Tame x ∧ Closes c ∧
      x ≠ [] := by
  obtain ⟨hx, hc, s⟩ := h
  rw [trimStart_append_stop (isBlank_of_steers hc.steers)] at hdot
  obtain ⟨v, hv, rfl⟩ : ∃ v, Text.trimStart _ = '.' :: v ∧ v ++ _ = rest := by
    rcases List.append_eq_cons_iff.mp hdot with ⟨-, hcons⟩ | ⟨v, hv, hrest⟩
    · rcases hc with rfl | rfl <;> exact absurd (List.cons.inj hcons).1 (by decide)
    · exact ⟨v, hv, hrest.symm⟩
  have htame : Tame ('.' :: v) := hv ▸ hx.of_isSuffix (trimStart_isSuffix _)
  have hne : v ≠ [] := by
    rintro rfl
    exact absurd (htame.ends '.' rfl) (by decide)
  have htail : Tame v := htame.of_isSuffix (List.suffix_cons _ _)
  rw [trimStart_append_stop (isBlank_of_steers hc.steers)]
  exact ⟨_, _, s, rfl, htail.of_isSuffix (trimStart_isSuffix v), hc, htail.trimStart_ne_nil hne⟩

theorem Inside.dottedRest (h : Inside t) (taken most : Nat) :
    Inside (Text.dottedRest taken t most).2 := by
  induction most generalizing taken t with
  | zero => exact h
  | succ most ih =>
      rw [Text.dottedRest]
      split
      · rename_i rest hdot
        obtain ⟨x, c, s, hrest, hx, hc, hne⟩ := h.behindDot hdot
        rw [hrest]
        split
        · rename_i name after hname
          exact ih (inside_identifier? hx hne hc s hname) _
        · exact h
      · exact h

/-- Within a quiet name any alias is. -/
theorem Inside.afterAlias (h : Inside t) : ∀ s ∈ Completion.afterAlias t, Inside s := by
  intro s hs
  unfold Completion.afterAlias at hs
  cases hblanks : Text.afterBlanks? t with
  | none =>
      rw [hblanks] at hs
      rwa [List.mem_singleton.mp hs]
  | some rest =>
      obtain ⟨x, c, v, rfl, hx, hc, hne⟩ := h.afterBlanks? hblanks
      simp only [hblanks, List.mem_append, Option.mem_toList, Option.map_eq_some_iff,
        List.mem_singleton] at hs
      rcases hs with (⟨found, hfound, rfl⟩ | ⟨found, hfound, rfl⟩) | rfl
      · obtain ⟨more, hmore, hfound⟩ := Option.bind_eq_some_iff.mp hfound
        obtain ⟨named, hnamed, hfound⟩ := Option.bind_eq_some_iff.mp hfound
        have hinside := (Inside.intro hx hc v).afterWord? (by decide) hmore
        obtain ⟨y, d, w, rfl, hy, hd, hynil⟩ := hinside.afterBlanks? hnamed
        exact inside_identifier? hy hynil hd w hfound
      · exact inside_identifier? hx hne hc v hfound
      · exact h

end Inside

end Completion

end SqlInsight
