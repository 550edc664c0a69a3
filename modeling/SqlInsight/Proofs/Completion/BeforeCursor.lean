/-
The words that completion takes into account. Without a buffer they are those behind the last
semicolon that no literal and no comment holds, so what stands before a semicolon of the code has no
say. They are the words of the last piece of the text, unless a delimited identifier holds a
semicolon. A separator line ends no statement here: what stands before one counts up to the next
semicolon. And the words right before the cursor decide some things by themselves: behind an
identifier and a dot, and behind a word that introduces a table, neither what stands before the
statement nor the buffer has a say; what belongs there depends on the identifier and on the last one
or two stretches between the blanks of the statement.
-/
import SqlInsight.Completion.Context
import SqlInsight.Proofs.Batch.Stretches
import SqlInsight.Proofs.Text.Code
import SqlInsight.Proofs.Text.Names

namespace SqlInsight

open Text

namespace Completion

variable {a b t : Text}

theorem lastStatement_of_not_mem (h : ';' ∉ t) : lastStatement t = t := by
  have hall : t.reverse.takeWhile (· != ';') = t.reverse := by
    rw [List.takeWhile_eq_self_iff]
    intro c hc
    have hne : c ≠ ';' := fun heq => h (heq ▸ List.mem_reverse.mp hc)
    simpa using hne
  rw [lastStatement, hall, List.reverse_reverse]

theorem lastStatement_append_semicolon (a b : Text) :
    lastStatement (a ++ ';' :: b) = lastStatement b := by
  have hreverse : (a ++ ';' :: b).reverse = b.reverse ++ ';' :: a.reverse := by simp
  rw [lastStatement, lastStatement, hreverse, List.takeWhile_append]
  split <;> rename_i hlength
  · rw [(List.takeWhile_prefix _).eq_of_length hlength]
    simp
  · rfl

/-- What stands before a text that holds a semicolon plays no part. -/
theorem lastStatement_append (a : Text) (h : ';' ∈ b) :
    lastStatement (a ++ b) = lastStatement b := by
  obtain ⟨before, after, rfl⟩ := List.append_of_mem h
  rw [← List.append_assoc, lastStatement_append_semicolon, lastStatement_append_semicolon]

/-- Without a buffer what belongs at the cursor depends on two things: whether the text before it
ends in a literal or a comment, and on the words of its last statement. -/
theorem classify_congr (e : Engine)
    (hend : a.endsInLiteralOrComment = b.endsInLiteralOrComment)
    (hlast : lastStatement (a.mask .literals) = lastStatement (b.mask .literals)) :
    classify e a none = classify e b none := by
  simp only [classify, hend, hlast, Option.filter_none, Option.bind_none]

theorem endsInLiteralOrComment_congr (h : a.endRegion = b.endRegion) :
    a.endsInLiteralOrComment = b.endsInLiteralOrComment := by
  rw [endsInLiteralOrComment, endsInLiteralOrComment, h]

theorem classify_append_semicolon (e : Engine) (ha : a.endRegion = .code) (b : Text) :
    classify e (a ++ ';' :: b) none = classify e b none := by
  apply classify_congr e
  · exact endsInLiteralOrComment_congr (endRegion_append_semicolon ha)
  · rw [mask_append_semicolon _ ha, lastStatement_append_semicolon]

/-- The words behind the last semicolon are those of the last stretch that pieces are cut from, if
every semicolon outside the literals and the comments belongs to the code. -/
theorem exists_cut_getLast? (t : Text)
    (h : ∀ x ∈ t.regions, x.1 = ';' → x.2 = .code ∨ x.2.isMasked .literals = true) :
    ∃ raw, (Piece.cut t.regions).getLast? = some (raw, false) ∧
      lastStatement (t.mask .literals) = raw.mask .literals := by
  induction hlength : t.length using Nat.strong_induction_on generalizing t with
  | h n ih =>
      rcases Piece.cut_regionsFrom (s := .start) trivial t with ⟨hcut, hmem⟩ |
        ⟨raw, rest, rfl, hregions, -, hcut⟩
      · have hfree : ';' ∉ t.mask .literals := by
          intro hin
          obtain ⟨r, hr, hshown⟩ := exists_region_of_mem_mask (by decide) hin
          rcases h _ hr rfl with hcode | hmasked
          · exact hmem (hcode ▸ hr)
          · rw [hshown] at hmasked
            contradiction
        exact ⟨t, by rw [regions, hcut]; rfl, lastStatement_of_not_mem hfree⟩
      · change regions (raw ++ ';' :: rest) =
          raw.regions ++ (';', .code) :: rest.regions at hregions
        have hshorter : rest.length < n := by
          rw [← hlength, List.length_append, List.length_cons]
          omega
        obtain ⟨last, hlast, hwords⟩ := ih rest.length hshorter rest
          (fun x hx => h x (by rw [hregions]; simp [hx])) rfl
        have hmask : (raw ++ ';' :: rest).mask .literals =
            raw.mask .literals ++ ';' :: rest.mask .literals := by
          rw [mask_eq_maskOf, hregions, maskOf_append]
          rfl
        refine ⟨last, ?_, ?_⟩
        · rw [regions, hcut, List.getLast?_cons, hlast]
          rfl
        · rw [hmask, lastStatement_append_semicolon, hwords]

/-- What stands before the last semicolon plays no part in what belongs at the cursor: neither a
statement that a semicolon of the code ends, nor a batch before a separator line if a semicolon
follows that line. The words behind the last semicolon are those of the last stretch that pieces are
cut from, if no delimited identifier holds a semicolon. -/
theorem classify_lastStatement (e : Engine) (ha : a.endRegion = .code) (b : Text) :
    classify e (a ++ ';' :: b) none = classify e b none ∧
      (';' ∈ b.mask .literals →
        classify e (a ++ "\nGO\n".toList ++ b) none = classify e b none) ∧
      ((∀ x ∈ b.regions, x.1 = ';' → x.2 = .code ∨ x.2.isMasked .literals = true) →
        ∃ raw, (Piece.cut b.regions).getLast? = some (raw, false) ∧
          lastStatement (b.mask .literals) = raw.mask .literals) := by
  refine ⟨classify_append_semicolon e ha b, fun hsemicolon => ?_, exists_cut_getLast? b⟩
  have hjoined : a ++ "\nGO\n".toList ++ b = a ++ '\n' :: ("GO".toList ++ '\n' :: b) := by
    rw [List.append_assoc]
    rfl
  have hgo : endRegion "GO".toList = .code := by decide
  rw [hjoined]
  apply classify_congr e
  · apply endsInLiteralOrComment_congr
    rw [endRegion_append_newline (Or.inl ha), endRegion_append_newline (Or.inl hgo)]
  · have hmask : (a ++ '\n' :: ("GO".toList ++ '\n' :: b)).mask .literals =
        a.mask .literals ++ '\n' :: (mask .literals "GO".toList ++ ['\n']) ++ b.mask .literals := by
      rw [mask_append_newline (Or.inl ha), mask_append_newline (Or.inl hgo)]
      simp
    rw [hmask, lastStatement_append _ hsemicolon]

/-- Behind a semicolon, and behind a separator line that a semicolon follows, the list of a select
is read as it is by itself. -/
theorem classify_lastStatement_select :
    classify ⟨fun _ _ => .ok [], {}⟩ ("UPDATE t SET a = 1".toList ++ ';' :: "SELECT b, ".toList)
        none = .column (some "SELECT".toList) false ∧
      classify ⟨fun _ _ => .ok [], {}⟩
        ("UPDATE t SET a = 1".toList ++ "\nGO\n".toList ++ "EXEC p; SELECT b, ".toList) none =
          .column (some "SELECT".toList) false ∧
      ∃ raw, (Piece.cut (regions "EXEC p; SELECT b, ".toList)).getLast? = some (raw, false) ∧
        lastStatement (mask .literals "EXEC p; SELECT b, ".toList) = raw.mask .literals := by
  have hcode : endRegion "UPDATE t SET a = 1".toList = .code := by decide
  obtain ⟨hsemicolon, -, -⟩ :=
    classify_lastStatement ⟨fun _ _ => .ok [], {}⟩ hcode "SELECT b, ".toList
  obtain ⟨-, hseparator, hlast⟩ :=
    classify_lastStatement ⟨fun _ _ => .ok [], {}⟩ hcode "EXEC p; SELECT b, ".toList
  refine ⟨hsemicolon.trans ?_, (hseparator ?_).trans ?_, hlast ?_⟩
  all_goals decide +kernel

/-- A statement behind a separator line is taken for a part of the update before it. -/
theorem classify_behind_separator_line :
    classify ⟨fun _ _ => .ok [], {}⟩ "UPDATE t SET a = 1\nGO\nSELECT b, ".toList none =
        .updateColumn (some "t".toList) ∧
      classify ⟨fun _ _ => .ok [], {}⟩ "SELECT b, ".toList none =
        .column (some "SELECT".toList) false := by
  constructor <;> decide +kernel

end Completion

/-- Putting ASCII letters in upper case changes no property of characters that agrees on the two
cases of each letter. -/
theorem CaseFold.apply_toUpper {α : Type} {f : Char → α}
    (h : ∀ n < 123, f (Char.ofNat n).toUpper = f (Char.ofNat n)) (c : Char) :
    f c.toUpper = f c := by
  by_cases hlower : c.val ≥ 'a'.val ∧ c.val ≤ 'z'.val
  · have hlast : c.toNat ≤ 122 := hlower.2
    have hchar := h c.toNat (by omega)
    rwa [Char.ofNat_toNat] at hchar
  · have hsame : c.toUpper = c := dif_neg hlower
    rw [hsame]

theorem isName_toUpper (c : Char) : CharClass.isName c.toUpper = CharClass.isName c :=
  CaseFold.apply_toUpper (by decide) c

namespace Text

/-- Behind a mask a text ends in no name if it does not end in one. -/
theorem endsName_mask (m : Mask) {t : Text} (h : endsName t = false) :
    endsName (t.mask m) = false := by
  rcases List.eq_nil_or_concat t with rfl | ⟨front, c, rfl⟩
  · rfl
  · rw [List.concat_eq_append] at h ⊢
    obtain ⟨u, r, -, -, hregions, -⟩ := exists_regionsFrom_append .start front c []
    rw [mask_eq_maskOf, regions, hregions, maskOf_append]
    change endsName (maskOf m u ++ ((if r.isMasked m then blanks c else [c]) ++ [])) = false
    rw [List.append_nil]
    split
    · rw [endsName_append (blanks_ne_nil c), endsName]
      cases hblanks : (blanks c).reverse with
      | nil => rfl
      | cons d more =>
          have hmem : d ∈ blanks c := by
            rw [← List.mem_reverse, hblanks]
            exact List.mem_cons_self
          exact isName_of_isBlank (isBlank_of_mem_blanks hmem)
    · rwa [endsName_append (List.cons_ne_nil c [])] at h ⊢

end Text

namespace Completion

variable {t before stretch gap : Text}

theorem lastStatement_append_of_not_mem (t : Text) {tail : Text} (h : ';' ∉ tail) :
    lastStatement (t ++ tail) = lastStatement t ++ tail := by
  have hall : ∀ c ∈ tail.reverse, (c != ';') = true := by
    intro c hc
    have hne : c ≠ ';' := fun heq => h (heq ▸ List.mem_reverse.mp hc)
    simpa using hne
  rw [lastStatement, List.reverse_append, List.takeWhile_append_of_pos hall, List.reverse_append,
    List.reverse_reverse, lastStatement]

theorem lastStatement_isSuffix (t : Text) : lastStatement t <:+ t := by
  rw [lastStatement, ← List.reverse_prefix, List.reverse_reverse]
  exact List.takeWhile_prefix _

theorem endsName_lastStatement (h : endsName t = false) : endsName (lastStatement t) = false := by
  obtain ⟨front, hfront⟩ := lastStatement_isSuffix t
  by_cases hnil : lastStatement t = []
  · rw [hnil]
    rfl
  · rwa [← hfront, endsName_append hnil] at h

/-- Whether a text is empty or ends with a blank, so that a stretch between blanks begins behind
it. -/
def SetOff (t : Text) : Prop :=
  ∀ c ∈ t.getLast?, CharClass.isBlank c = true

instance (t : Text) : Decidable (SetOff t) :=
  inferInstanceAs (Decidable (∀ c ∈ t.getLast?, _))

/-- Whether the last stretch between blanks of a text, which begins behind `before`, is a word of
the list in any case, here in upper case; signs that no name holds may stand in front of it. -/
def EndsInWord (list : List String) (t before word : Text) : Prop :=
  ∃ signs written gap, t = before ++ (signs ++ written) ++ gap ∧ SetOff before ∧
    (∀ c ∈ signs, CharClass.isName c = false ∧ CharClass.isBlank c = false) ∧
    gap.isBlank = true ∧ written.asciiUpper = word ∧ among list word = true

/-- Whether a word joins a table to others, so that the word before it may say how. -/
def Joins (word : Text) : Prop :=
  word = "JOIN".toList ∨ word = "APPLY".toList

instance (word : Text) : Decidable (Joins word) :=
  inferInstanceAs (Decidable (_ ∨ _))

/-- Whether a text ends in a word that introduces a table, in upper case, or in one that joins
tables together with the word before it that says how. -/
inductive Introduces (t : Text) : Text → Prop where
  | alone {before word : Text} (h : EndsInWord tableWords t before word)
      (hnone : Joins word → ∀ b modifier, ¬EndsInWord joinWords before b modifier) :
      Introduces t word
  | joined {before word b modifier : Text} (h : EndsInWord tableWords t before word)
      (hjoins : Joins word) (hmodifier : EndsInWord joinWords before b modifier) :
      Introduces t (modifier ++ ' ' :: word)

theorem stretches_append (hset : SetOff before) (hne : stretch ≠ [])
    (hstretch : ∀ c ∈ stretch, CharClass.isBlank c = false) (hgap : gap.isBlank = true) :
    ((before ++ stretch ++ gap).splitOnP CharClass.isBlank).filter (!·.isEmpty) =
      (before.splitOnP CharClass.isBlank).filter (!·.isEmpty) ++ [stretch] := by
  have hbehind : ((stretch ++ gap).splitOnP CharClass.isBlank).filter (!·.isEmpty) = [stretch] := by
    induction gap using List.reverseRecOn with
    | nil =>
        rw [List.append_nil, List.splitOnP_eq_singleton hstretch]
        simp [hne]
    | append_singleton gap c ih =>
        rw [isBlank, List.all_append, Bool.and_eq_true] at hgap
        obtain ⟨hgap, hc⟩ := hgap
        have hblank : CharClass.isBlank c = true := by simpa using hc
        rw [← List.append_assoc, List.splitOnP_append_cons _ _ hblank, List.filter_append, ih hgap]
        simp
  rcases List.eq_nil_or_concat before with rfl | ⟨front, c, rfl⟩
  · rw [List.nil_append, hbehind]
    simp
  · have hblank : CharClass.isBlank c = true := hset c (by simp)
    rw [List.concat_eq_append, List.append_assoc, List.append_assoc, List.singleton_append,
      List.splitOnP_append_cons _ _ hblank, List.splitOnP_append_cons _ _ hblank,
      List.filter_append, List.filter_append, hbehind]
    simp

/-- The last stretch between blanks is the first token from the end. -/
theorem tokensFromEnd_append (hset : SetOff before) (hne : stretch ≠ [])
    (hstretch : ∀ c ∈ stretch, CharClass.isBlank c = false) (hgap : gap.isBlank = true) :
    tokensFromEnd (before ++ stretch ++ gap) =
      asciiUpper (stretch.dropWhile fun c => !CharClass.isName c) :: tokensFromEnd before := by
  rw [tokensFromEnd, stretches_append hset hne hstretch hgap, List.reverse_append]
  rfl

theorem tokensFromEnd_of_isBlank (h : t.isBlank = true) : tokensFromEnd t = [] := by
  induction t with
  | nil => rfl
  | cons c rest ih =>
      rw [isBlank, List.all_cons, Bool.and_eq_true] at h
      rw [← ih h.2, tokensFromEnd, List.splitOnP_cons_eq_if_modifyHead, if_pos h.1, tokensFromEnd,
        List.filter_cons_of_neg (by simp)]

/-- A text that is not blank has a last stretch between blanks. -/
theorem exists_lastStretch (h : t.isBlank = false) :
    ∃ before stretch gap, t = before ++ stretch ++ gap ∧ SetOff before ∧ stretch ≠ [] ∧
      (∀ c ∈ stretch, CharClass.isBlank c = false) ∧ gap.isBlank = true := by
  obtain ⟨gap, ht, hgap⟩ := exists_dropEndWhile CharClass.isBlank t
  obtain ⟨stretch, hbody, hstretch⟩ :=
    exists_dropEndWhile (fun c => !CharClass.isBlank c) (t.dropEndWhile CharClass.isBlank)
  have hblank : gap.isBlank = true := List.all_eq_true.mpr hgap
  refine ⟨_, stretch, gap, by rw [← hbody, ← ht], fun c hc => ?_, ?_, fun c hc => ?_, hblank⟩
  · simpa using dropEndWhile_getLast? _ _ hc
  · rintro rfl
    rw [List.append_nil] at hbody
    cases hlast : (t.dropEndWhile CharClass.isBlank).getLast? with
    | none =>
        rw [List.getLast?_eq_none_iff.mp hlast, List.nil_append] at ht
        rw [ht, hblank] at h
        contradiction
    | some c =>
        have hnot := dropEndWhile_getLast? CharClass.isBlank t hlast
        rw [hbody] at hlast
        have hpos := dropEndWhile_getLast? (fun c => !CharClass.isBlank c) _ hlast
        simp [hnot] at hpos
  · simpa using hstretch c hc

def AreNames (list : List String) : Prop :=
  ∀ word ∈ list, word.toList ≠ [] ∧ ∀ c ∈ word.toList, CharClass.isName c = true

instance (list : List String) : Decidable (AreNames list) :=
  inferInstanceAs (Decidable (∀ word ∈ list, _ ∧ _))

theorem among_iff {list : List String} {word : Text} :
    among list word = true ↔ ∃ w ∈ list, w.toList = word := by
  simp [among]

variable {list : List String}

/-- What is one of these words in upper case is a name. -/
theorem isName_of_among (hlist : AreNames list) {written : Text}
    (h : among list written.asciiUpper = true) :
    written ≠ [] ∧ ∀ c ∈ written, CharClass.isName c = true := by
  obtain ⟨w, hw, hword⟩ := among_iff.mp h
  obtain ⟨hne, hnames⟩ := hlist w hw
  rw [hword] at hne hnames
  refine ⟨fun hnil => hne (by rw [hnil]; rfl), fun c hc => ?_⟩
  rw [← isName_toUpper]
  exact hnames _ (List.mem_map_of_mem hc)

theorem dropWhile_signs {signs written : Text}
    (hsigns : ∀ c ∈ signs, CharClass.isName c = false ∧ CharClass.isBlank c = false)
    (hwritten : ∀ c ∈ written, CharClass.isName c = true) :
    (signs ++ written).dropWhile (fun c => !CharClass.isName c) = written := by
  rw [List.dropWhile_append_of_pos fun c hc => by simp [(hsigns c hc).1]]
  cases written with
  | nil => rfl
  | cons c rest => simp [hwritten c List.mem_cons_self]

theorem EndsInWord.tokens (hlist : AreNames list) {word : Text}
    (h : EndsInWord list t before word) : tokensFromEnd t = word :: tokensFromEnd before := by
  obtain ⟨signs, written, gap, rfl, hset, hsigns, hgap, rfl, hmem⟩ := h
  obtain ⟨hne, hwritten⟩ := isName_of_among hlist hmem
  rw [tokensFromEnd_append hset (by simp [hne]) _ hgap, dropWhile_signs hsigns hwritten]
  intro c hc
  rcases List.mem_append.mp hc with hc | hc
  · exact (hsigns c hc).2
  · exact isBlank_of_isName (hwritten c hc)

/-- The first token from the end is one of these words exactly if the text ends in it. -/
theorem exists_endsInWord_iff (hlist : AreNames list) {word : Text} {tokens : List Text} :
    (tokensFromEnd t = word :: tokens ∧ among list word = true) ↔
      ∃ before, EndsInWord list t before word ∧ tokensFromEnd before = tokens := by
  constructor
  · rintro ⟨htokens, hmem⟩
    have hblank : t.isBlank = false := by
      rw [Bool.eq_false_iff]
      intro hblank
      rw [tokensFromEnd_of_isBlank hblank] at htokens
      contradiction
    obtain ⟨before, stretch, gap, rfl, hset, hne, hstretch, hgap⟩ := exists_lastStretch hblank
    rw [tokensFromEnd_append hset hne hstretch hgap] at htokens
    obtain ⟨hword, hbefore⟩ := List.cons.inj htokens
    refine ⟨before, ⟨stretch.takeWhile fun c => !CharClass.isName c, _, gap, ?_, hset,
      fun c hc => ⟨?_, hstretch c ?_⟩, hgap, hword, hmem⟩, hbefore⟩
    · rw [List.takeWhile_append_dropWhile]
    · simpa using List.mem_takeWhile_imp hc
    · exact (List.takeWhile_prefix _).subset hc
  · rintro ⟨before, h, rfl⟩
    refine ⟨h.tokens hlist, ?_⟩
    obtain ⟨-, -, -, -, -, -, -, -, hmem⟩ := h
    exact hmem

theorem areNames_tableWords : AreNames tableWords := by
  decide

theorem areNames_joinWords : AreNames joinWords := by
  decide

theorem EndsInWord.among {word : Text} (h : EndsInWord list t before word) :
    among list word = true := by
  obtain ⟨-, -, -, -, -, -, -, -, hmem⟩ := h
  exact hmem

/-- The second token from the end says how tables are joined exactly if what stands before the last
one ends in a word that does. -/
theorem modifier_iff {tokens : List Text} (h : tokensFromEnd before = tokens) {modifier : Text} :
    tokens.head?.filter (Completion.among joinWords) = some modifier ↔
      ∃ b, EndsInWord joinWords before b modifier := by
  rw [Option.filter_eq_some_iff, List.head?_eq_some_iff]
  constructor
  · rintro ⟨⟨more, rfl⟩, hmem⟩
    obtain ⟨b, hends, -⟩ := (exists_endsInWord_iff areNames_joinWords).mp ⟨h, hmem⟩
    exact ⟨b, hends⟩
  · rintro ⟨b, hends⟩
    exact ⟨⟨_, h.symm.trans (hends.tokens areNames_joinWords)⟩, hends.among⟩

theorem tableWords?_of_endsInWord {word : Text} (h : EndsInWord tableWords t before word) :
    tableWords? t =
      match (tokensFromEnd before).head?.filter (Completion.among joinWords) with
      | some modifier => some (if Joins word then modifier ++ ' ' :: word else word)
      | none => some word := by
  simp only [tableWords?, h.tokens areNames_tableWords, h.among, Joins, Bool.not_true,
    Bool.false_eq_true, if_false, Bool.or_eq_true, beq_iff_eq]
  rfl

/-- The words at the end of a text after which a table is named are those in which it ends. -/
theorem tableWords?_eq_some_iff {after : Text} :
    tableWords? t = some after ↔ Introduces t after := by
  constructor
  · intro hsome
    cases htokens : tokensFromEnd t with
    | nil => simp [tableWords?, htokens] at hsome
    | cons word tokens =>
        have hmem : Completion.among tableWords word = true := by
          by_contra hnot
          have hnone : tableWords? t = none := by
            rw [tableWords?, htokens]
            exact if_pos (by simp [hnot])
          rw [hnone] at hsome
          contradiction
        obtain ⟨before, hends, hbefore⟩ :=
          (exists_endsInWord_iff areNames_tableWords).mp ⟨htokens, hmem⟩
        rw [tableWords?_of_endsInWord hends, hbefore] at hsome
        cases hmodifier : tokens.head?.filter (Completion.among joinWords) with
        | some modifier =>
            obtain ⟨b, hjoin⟩ := (modifier_iff hbefore).mp hmodifier
            rw [hmodifier] at hsome
            obtain rfl := Option.some.inj hsome
            split
            · exact .joined hends ‹_› hjoin
            · exact .alone hends fun hjoins => absurd hjoins ‹_›
        | none =>
            rw [hmodifier] at hsome
            obtain rfl := Option.some.inj hsome
            refine .alone hends fun _ b modifier hjoin => ?_
            rw [(modifier_iff hbefore).mpr ⟨b, hjoin⟩] at hmodifier
            contradiction
  · rintro (⟨hends, hnone⟩ | ⟨hends, hjoins, hjoin⟩)
    · rw [tableWords?_of_endsInWord hends]
      cases hmodifier : (tokensFromEnd _).head?.filter (Completion.among joinWords) with
      | none => rfl
      | some modifier =>
          obtain ⟨b, hjoin⟩ := (modifier_iff rfl).mp hmodifier
          change some (if _ then _ else _) = _
          rw [if_neg fun hjoins => hnone hjoins b modifier hjoin]
    · rw [tableWords?_of_endsInWord hends, (modifier_iff rfl).mpr ⟨_, hjoin⟩]
      change some (if _ then _ else _) = _
      rw [if_pos hjoins]

theorem nameTail_append_of_not_endsName (h : endsName t = false) (w : Text) :
    nameTail (t ++ w) = nameTail w := by
  have hstop : t.reverse.takeWhile CharClass.isName = [] := by
    rw [endsName] at h
    cases hreverse : t.reverse with
    | nil => rfl
    | cons c rest =>
        rw [hreverse] at h
        have hc : CharClass.isName c = false := h
        exact List.takeWhile_cons_of_neg (by simp [hc])
  rw [nameTail, List.reverse_append, List.takeWhile_append, hstop, List.append_nil, nameTail]
  split
  · rename_i hlength
    rw [(List.takeWhile_prefix _).eq_of_length hlength]
  · rfl

theorem nameTail_append {tail : Text} (h : endsName t = false)
    (htail : ∀ c ∈ tail, CharClass.isName c = true) : nameTail (t ++ tail) = tail := by
  have hreverse : ∀ c ∈ tail.reverse, CharClass.isName c = true :=
    fun c hc => htail c (List.mem_reverse.mp hc)
  rw [nameTail_append_of_not_endsName h, nameTail, List.takeWhile_eq_self_iff.mpr hreverse,
    List.reverse_reverse]

/-- What is being typed is the name that the text ends in. -/
theorem splitTyped_append {typed : Text} (h : endsName t = false)
    (hopen : ∀ c, t.getLast? = some c → c ≠ '[' ∧ c ≠ '"')
    (htyped : ∀ c ∈ typed, CharClass.isName c = true) : splitTyped (t ++ typed) = (t, typed) := by
  have htake : (t ++ typed).take ((t ++ typed).length - typed.length) = t := by
    rw [List.length_append, Nat.add_sub_cancel, List.take_left]
  simp only [splitTyped, nameTail_append h htyped, htake]
  split
  · exact absurd rfl (hopen _ ‹_›).1
  · exact absurd rfl (hopen _ ‹_›).2
  · rfl

/-- The identifier at the end of a text is the name that it ends in. -/
theorem lastIdentifier?_append {name : Text} (h : endsName t = false) (hne : name ≠ [])
    (hname : ∀ c ∈ name, CharClass.isName c = true) :
    lastIdentifier? (t ++ name) = some (name, t) := by
  obtain ⟨front, c, rfl⟩ : ∃ front c, name = front ++ [c] :=
    ⟨_, _, (List.dropLast_append_getLast hne).symm⟩
  have hc : CharClass.isName c = true := hname c (by simp)
  have hreverse : (t ++ (front ++ [c])).reverse = c :: (front.reverse ++ t.reverse) := by simp
  have htake : (t ++ (front ++ [c])).take ((t ++ (front ++ [c])).length - (front ++ [c]).length) =
      t := by
    rw [List.length_append, Nat.add_sub_cancel, List.take_left]
  unfold lastIdentifier?
  rw [hreverse]
  split
  · rename_i heq
    rw [(List.cons.inj heq).1] at hc
    exact absurd hc (by decide)
  · rename_i heq
    rw [(List.cons.inj heq).1] at hc
    exact absurd hc (by decide)
  · simp only [nameTail_append h hname, htake]
    simp

/-- The words of the statement that a text ends in. -/
def currentWords (p : Text) : Text :=
  lastStatement (p.mask .literals)

/-- What belongs at the cursor, decided by the words of the statement in front of it and by what is
being typed. -/
theorem classify_eq (e : Engine) {t words typed : Text} (hopen : t.endsInLiteralOrComment = false)
    (hsplit : splitTyped (currentWords t) = (words, typed)) (buffer : Option Text) :
    classify e t buffer =
      ((afterDot? e.settings words typed).or ((tableWords? words).map Context.table)).getD
        (((buffer.filter fun b => b.size < e.settings.maxTreeChars).bind fun b =>
          ofBuffer? e t b words).getD (ofWords words)) := by
  rw [currentWords] at hsplit
  simp only [classify, hopen, hsplit, Bool.false_eq_true, if_false]
  cases afterDot? e.settings words typed with
  | some context => rfl
  | none => cases tableWords? words <;> rfl

section

variable (e : Engine) {p : Text} (hcode : p.endRegion = .code)

include hcode

/-- The words before the cursor go on from those of the statement that the text in front ends in. -/
theorem currentWords_append {tail : Text} (htail : ∀ c ∈ tail, staysInCode c = true)
    (hhead : ∀ c, tail.head? = some c → isPairEnd c = false) (hsemicolon : ';' ∉ tail) :
    currentWords (p ++ tail) = currentWords p ++ tail ∧
      (p ++ tail).endsInLiteralOrComment = false := by
  obtain ⟨hmask, hend⟩ := mask_append_code hcode htail hhead .literals
  refine ⟨?_, ?_⟩
  · rw [currentWords, hmask, lastStatement_append_of_not_mem _ hsemicolon, currentWords]
  · rw [endsInLiteralOrComment, hend]

/-- Behind a name and a dot there is a part of the name of a table if a table is named there, or if
the name is that of a known schema. -/
theorem classify_behind_dot (hp : endsName p = false) {q w : Text} (hne : q ≠ [])
    (hq : ∀ c ∈ q, CharClass.isName c = true)
    (hdigit : ∀ c ∈ q.head?, c.isDigit = false)
    (hw : ∀ c ∈ w, CharClass.isName c = true) (buffer : Option Text) :
    classify e (p ++ (q ++ '.' :: w)) buffer =
      if e.settings.isKnownSchema q = true ∨ (tableWords? (currentWords p)).isSome = true then
        .schema q w
      else .aliasColumn q := by
  have hmem : ∀ c ∈ q ++ '.' :: w, CharClass.isName c = true ∨ c = '.' := by
    intro c hc
    rcases List.mem_append.mp hc with hc | hc
    · exact Or.inl (hq c hc)
    · rcases List.mem_cons.mp hc with rfl | hc
      · exact Or.inr rfl
      · exact Or.inl (hw c hc)
  have hhead : ∀ c, (q ++ '.' :: w).head? = some c → isPairEnd c = false := by
    intro c hc
    rw [List.head?_append_of_ne_nil _ hne] at hc
    exact (staysInCode_of_isName (hq c (List.mem_of_head? hc))).2
  have htail : ∀ c ∈ q ++ '.' :: w, staysInCode c = true := fun c hc =>
    (hmem c hc).elim (fun hname => (staysInCode_of_isName hname).1) (by rintro rfl; decide)
  obtain ⟨hlast, hopen⟩ := currentWords_append hcode htail hhead
    (fun hc => (hmem _ hc).elim (by decide) (by decide))
  have hends : endsName (currentWords p) = false :=
    endsName_lastStatement (endsName_mask .literals hp)
  have hsplit : splitTyped (currentWords p ++ (q ++ '.' :: w)) =
      (currentWords p ++ q ++ ['.'], w) := by
    have hwords : currentWords p ++ (q ++ '.' :: w) = (currentWords p ++ q ++ ['.']) ++ w := by simp
    rw [hwords]
    refine splitTyped_append ?_ (by simp) hw
    rw [endsName_append (List.cons_ne_nil '.' [])]
    decide
  have hdelimited : ((currentWords p ++ q).getLast? == some ']' ||
      (currentWords p ++ q).getLast? == some '"') = false := by
    rw [List.getLast?_append_of_ne_nil _ hne, Bool.or_eq_false_iff]
    constructor <;> rw [beq_eq_false_iff_ne] <;> intro hlast <;>
      exact absurd (hq _ (List.mem_of_getLast? hlast)) (by decide)
  have hnumber : (q.head?.any Char.isDigit) = false := by
    cases hhead : q.head? with
    | none => rfl
    | some c => exact hdigit c hhead
  have hdot : afterDot? e.settings (currentWords p ++ q ++ ['.']) w =
      some (if e.settings.isKnownSchema q = true ∨ (tableWords? (currentWords p)).isSome = true then
        .schema q w else .aliasColumn q) := by
    simp only [afterDot?, List.getLast?_concat, ne_eq, not_true_eq_false, if_false,
      List.dropLast_concat, lastIdentifier?_append hends hne hq, hdelimited, hnumber,
      Name.unquote_of_isName hw, Bool.not_false, Bool.and_false, Bool.false_eq_true,
      Bool.or_eq_true]
    split <;> rfl
  rw [classify_eq e hopen (hlast ▸ hsplit), hdot]
  rfl

/-- Behind words that introduce a table, and a blank, there is a table. -/
theorem classify_behind_words {tail w after : Text}
    (htail : ∀ c ∈ tail, CharClass.isName c = true ∨ CharClass.isBlank c = true)
    (hblank : ∃ c, tail.getLast? = some c ∧ CharClass.isBlank c = true)
    (hafter : Introduces (currentWords p ++ tail) after)
    (hw : ∀ c ∈ w, CharClass.isName c = true) (buffer : Option Text) :
    classify e (p ++ (tail ++ w)) buffer = .table after := by
  have hmem : ∀ c ∈ tail ++ w, CharClass.isName c = true ∨ CharClass.isBlank c = true :=
    fun c hc => (List.mem_append.mp hc).elim (htail c) fun hc => Or.inl (hw c hc)
  have hcodeTail : ∀ c ∈ tail ++ w, staysInCode c = true := fun c hc =>
    (hmem c hc).elim (fun hname => (staysInCode_of_isName hname).1) staysInCode_of_isBlank
  obtain ⟨hlast, hopen⟩ := currentWords_append hcode hcodeTail
    (fun c hc => (hmem c (List.mem_of_head? hc)).elim (fun hname => (staysInCode_of_isName hname).2)
      isPairEnd_of_isBlank)
    (fun hc => (hmem _ hc).elim (by decide) (by decide))
  obtain ⟨c, hc, hcblank⟩ := hblank
  have hne : tail ≠ [] := by
    rintro rfl
    contradiction
  have hgetLast : (currentWords p ++ tail).getLast? = some c := by
    rw [List.getLast?_append_of_ne_nil _ hne, hc]
  have hsplit : splitTyped (currentWords p ++ (tail ++ w)) = (currentWords p ++ tail, w) := by
    rw [← List.append_assoc]
    apply splitTyped_append _ _ hw
    · obtain ⟨front, hfront⟩ := List.getLast?_eq_some_iff.mp hgetLast
      rw [hfront, endsName_append (List.cons_ne_nil c [])]
      exact isName_of_isBlank hcblank
    · intro d hd
      obtain rfl := Option.some.inj (hgetLast.symm.trans hd)
      constructor <;> rintro rfl <;> exact absurd hcblank (by decide)
  have hdot : afterDot? e.settings (currentWords p ++ tail) w = none := by
    apply if_pos
    rw [hgetLast, ne_eq, Option.some.injEq]
    rintro rfl
    exact absurd hcblank (by decide)
  rw [classify_eq e hopen (hlast ▸ hsplit), hdot, tableWords?_eq_some_iff.mpr hafter]
  rfl

end

/-- Whatever stands in the buffer, and whatever stands before the statement, behind an identifier
and a dot there is a part of the name of a table if the identifier is a known schema or if the words
in front of it introduce a table, and otherwise a column of the identifier; and behind a word that
introduces a table there is a table, after that word and the one in front of it that says how it
joins, if there is one. -/
theorem classify_before_cursor (e : Engine) {p : Text} (hcode : p.endRegion = .code)
    (buffer : Option Text) :
    (∀ q w : Text, endsName p = false → q ≠ [] → (∀ c ∈ q, CharClass.isName c = true) →
      (∀ c ∈ q.head?, c.isDigit = false) → (∀ c ∈ w, CharClass.isName c = true) →
      ((e.settings.isKnownSchema q = true ∨ ∃ after, Introduces (currentWords p) after) →
        classify e (p ++ (q ++ '.' :: w)) buffer = .schema q w) ∧
      ((e.settings.isKnownSchema q = false ∧ ∀ after, ¬Introduces (currentWords p) after) →
        classify e (p ++ (q ++ '.' :: w)) buffer = .aliasColumn q)) ∧
    ∀ lead k gap w : Text, lead.isBlank = true → SetOff (currentWords p ++ lead) →
      among tableWords k.asciiUpper = true → gap.isBlank = true → gap ≠ [] →
      (∀ c ∈ w, CharClass.isName c = true) →
      (∀ b modifier, Joins k.asciiUpper → EndsInWord joinWords (currentWords p ++ lead) b modifier →
        classify e (p ++ (lead ++ k ++ gap ++ w)) buffer =
          .table (modifier ++ ' ' :: k.asciiUpper)) ∧
      ((Joins k.asciiUpper →
          ∀ b modifier, ¬EndsInWord joinWords (currentWords p ++ lead) b modifier) →
        classify e (p ++ (lead ++ k ++ gap ++ w)) buffer = .table k.asciiUpper) := by
  have hintroduces : (∃ after, Introduces (currentWords p) after) ↔
      (tableWords? (currentWords p)).isSome = true := by
    rw [Option.isSome_iff_exists]
    exact exists_congr fun after => tableWords?_eq_some_iff.symm
  constructor
  · intro q w hp hne hq hdigit hw
    rw [classify_behind_dot e hcode hp hne hq hdigit hw buffer]
    constructor
    · intro h
      rw [hintroduces] at h
      rw [if_pos h]
    · rintro ⟨hschema, hnone⟩
      rw [← not_exists, hintroduces] at hnone
      rw [if_neg (by simp [hschema, hnone])]
  · intro lead k gap w hlead hset hk hgap hgapne hw
    have hmem : ∀ c ∈ lead ++ k ++ gap, CharClass.isName c = true ∨ CharClass.isBlank c = true := by
      rw [isBlank, List.all_eq_true] at hlead hgap
      intro c hc
      rcases List.mem_append.mp hc with hc | hc
      · rcases List.mem_append.mp hc with hc | hc
        · exact Or.inr (hlead c hc)
        · exact Or.inl ((isName_of_among areNames_tableWords hk).2 c hc)
      · exact Or.inr (hgap c hc)
    have hblank : ∃ c, (lead ++ k ++ gap).getLast? = some c ∧ CharClass.isBlank c = true := by
      rw [isBlank, List.all_eq_true] at hgap
      rw [List.getLast?_append_of_ne_nil _ hgapne, List.getLast?_eq_some_getLast hgapne]
      exact ⟨_, rfl, hgap _ (List.getLast_mem hgapne)⟩
    have hends : EndsInWord tableWords (currentWords p ++ (lead ++ k ++ gap))
        (currentWords p ++ lead) k.asciiUpper :=
      ⟨[], k, gap, by simp, hset, by simp, hgap, rfl, hk⟩
    constructor
    · intro b modifier hjoins hmodifier
      exact classify_behind_words e hcode hmem hblank (.joined hends hjoins hmodifier) hw buffer
    · intro hnone
      exact classify_behind_words e hcode hmem hblank (.alone hends hnone) hw buffer

/-- A schema that is not known behind a word that introduces a table, a known one elsewhere, an
alias behind other words, and a table behind two words that join it. -/
theorem classify_before_cursor_joined :
    classify ⟨fun _ _ => .ok [], {}⟩
        ("SELECT ';' FROM a; SELECT * FROM ".toList ++ ("Sales".toList ++ '.' :: "Or".toList))
        (some "SELECT".toList) = .schema "Sales".toList "Or".toList ∧
      classify ⟨fun _ _ => .ok [], {}⟩ ("SELECT (".toList ++ ("DBO".toList ++ '.' :: [])) none =
        .schema "DBO".toList [] ∧
      classify ⟨fun _ _ => .ok [], {}⟩
        ("SELECT 1 FROM dbo.Users u WHERE ".toList ++ ("u".toList ++ '.' :: "N".toList)) none =
        .aliasColumn "u".toList ∧
      classify ⟨fun _ _ => .ok [], {}⟩
        ("SELECT * FROM (a Left /* FROM */".toList ++
          ([] ++ "join".toList ++ ['\n'] ++ "Or".toList)) none =
        .table "LEFT JOIN".toList ∧
      classify ⟨fun _ _ => .ok [], {}⟩ ([] ++ ([] ++ "update".toList ++ [' '] ++ [])) none =
        .table "UPDATE".toList := by
  refine ⟨?_, ?_, ?_, ?_, ?_⟩
  · have hcode : endRegion "SELECT ';' FROM a; SELECT * FROM ".toList = .code := by decide
    have hfrom : Introduces (currentWords "SELECT ';' FROM a; SELECT * FROM ".toList)
        "FROM".toList := tableWords?_eq_some_iff.mp (by decide)
    apply ((classify_before_cursor _ hcode _).1 "Sales".toList "Or".toList _ _ _ _ _).1
    · exact Or.inr ⟨_, hfrom⟩
    all_goals decide
  · have hcode : endRegion "SELECT (".toList = .code := by decide
    apply ((classify_before_cursor _ hcode _).1 "DBO".toList [] _ _ _ _ _).1
    · exact Or.inl (by decide)
    all_goals decide
  · have hcode : endRegion "SELECT 1 FROM dbo.Users u WHERE ".toList = .code := by decide
    have hnone : tableWords? (currentWords "SELECT 1 FROM dbo.Users u WHERE ".toList) = none := by
      decide
    apply ((classify_before_cursor _ hcode _).1 "u".toList "N".toList _ _ _ _ _).2
    · refine ⟨by decide, fun after hafter => ?_⟩
      rw [tableWords?_eq_some_iff.mpr hafter] at hnone
      contradiction
    all_goals decide
  · have hcode : endRegion "SELECT * FROM (a Left /* FROM */".toList = .code := by decide
    have hleft : ∃ b, EndsInWord joinWords
        (currentWords "SELECT * FROM (a Left /* FROM */".toList ++ []) b "LEFT".toList :=
      (modifier_iff rfl).mp (by decide)
    obtain ⟨b, hleft⟩ := hleft
    refine ((classify_before_cursor _ hcode _).2 [] "join".toList ['\n'] "Or".toList
      ?_ ?_ ?_ ?_ ?_ ?_).1 b _ ?_ hleft
    all_goals decide
  · have hcode : endRegion [] = .code := rfl
    refine ((classify_before_cursor _ hcode _).2 [] "update".toList [' '] [] ?_ ?_ ?_ ?_ ?_ ?_).2
      fun hjoins => absurd hjoins (by decide)
    all_goals decide

end Completion

end SqlInsight
