/-
The words of a text that open its clauses. They are its names in upper case, so in texts that differ
in quiet names only they differ in stretches of words that open no clause, and the last clause is
the same.
-/
import SqlInsight.Proofs.Completion.BeforeCursor
import SqlInsight.Proofs.Completion.Searches
import SqlInsight.Proofs.Text.Occurrences

namespace SqlInsight

open Text

theorem asciiLower_asciiUpper (t : Text) : asciiLower (asciiUpper t) = asciiLower t := by
  have h (c : Char) : c.toUpper.toLower = c.toLower := CaseFold.apply_toUpper (by decide) c
  rw [asciiLower, asciiUpper, List.map_map, asciiLower]
  exact List.map_congr_left fun c _ => h c

theorem asciiUpper_asciiLower (t : Text) : asciiUpper (asciiLower t) = asciiUpper t := by
  have h (c : Char) : c.toLower.toUpper = c.toUpper := CaseFold.apply_toLower (by decide) c
  rw [asciiUpper, asciiLower, List.map_map, asciiUpper]
  exact List.map_congr_left fun c _ => h c

namespace Completion

variable {s t : Text}

theorem upperWords_eq (t : Text) : upperWords t = (names t).map asciiUpper := by
  have hsplit (t : Text) : ∃ first more, t.splitOnP (fun c => !CharClass.isName c) = first :: more ∧
      beginsName t = !first.isEmpty ∧ names t = (first :: more).filter (!·.isEmpty) := by
    induction t with
    | nil => exact ⟨[], [], rfl, rfl, rfl⟩
    | cons c t ih =>
        obtain ⟨first, more, hsplit, hbegins, hnames⟩ := ih
        rw [List.splitOnP_cons_eq_if_modifyHead, hsplit]
        by_cases hc : CharClass.isName c = true
        · refine ⟨c :: first, more, by simp [hc], by simp [beginsName, hc], ?_⟩
          rw [names, if_pos hc, hbegins, hnames]
          cases first with
          | nil => rfl
          | cons d first => simp
        · refine ⟨[], first :: more, by simp [hc], by simp [beginsName, hc], ?_⟩
          rw [names, if_neg hc, hnames]
          rfl
  obtain ⟨first, more, hsplit, -, hnames⟩ := hsplit t
  rw [upperWords, hsplit, hnames]

/-- Words that open no clause, neither by themselves nor together with the first word of `rest`. -/
structure QuietWords (rest words : List Text) : Prop where
  ne_nil : words ≠ []
  open_none : ∀ word ∈ words, among (clauseWords ++ ["BY"]) word = false
  unpaired : rest.head? = some "BY".toList →
    ∀ word ∈ words.getLast?, among pairWords word = false

/-- Words that differ in stretches that open no clause. -/
inductive WordsAlike : List Text → List Text → Prop where
  | nil : WordsAlike [] []
  | cons (word : Text) {a b : List Text} (rest : WordsAlike a b) :
      WordsAlike (word :: a) (word :: b)
  | names {u v a b : List Text} (left : QuietWords a u) (right : QuietWords b v)
      (rest : WordsAlike a b) : WordsAlike (u ++ a) (v ++ b)

theorem among_append (list list' : List String) (word : Text) :
    among (list ++ list') word = (among list word || among list' word) :=
  List.any_append

/-- A word of a text stands in it by any account. -/
theorem holdsWord_of_mem_upperWords {word : String} (h : word.toList ∈ upperWords t) :
    holdsWord word t = true := by
  rw [upperWords_eq, List.mem_map] at h
  obtain ⟨name, hname, hword⟩ := h
  obtain ⟨u, v, rfl, -, -, hu, hv⟩ := mem_names_iff.mp hname
  have hends {o : Option Char} (ho : ∀ d ∈ o, CharClass.isName d = false) : endsWords o = true :=
    endsWords_of_not_isName ho
  have hafter : afterWord? (asciiLower word.toList) (name ++ v) = some v := by
    rw [← hword, asciiLower_asciiUpper]
    exact afterWord?_asciiLower name v
  refine holdsWord_of_append word (hends ?_) hafter (hends ?_)
  · intro d hd
    obtain ⟨front, rfl⟩ := List.getLast?_eq_some_iff.mp hd
    rwa [endsName_append (List.cons_ne_nil d []), endsName_singleton] at hu
  · intro d hd
    obtain ⟨more, rfl⟩ := List.head?_eq_some_iff.mp hd
    exact hv

theorem QuietBefore.upperWords {x : Text} (h : QuietBefore s x) :
    QuietWords (Completion.upperWords s) (Completion.upperWords x) := by
  refine ⟨?_, fun word hword => ?_, h.unpaired⟩
  · rw [upperWords_eq, ne_eq, List.map_eq_nil_iff]
    exact names_ne_nil h.ends
  · rw [Bool.eq_false_iff]
    intro hamong
    obtain ⟨w, hw, rfl⟩ := among_iff.mp hamong
    have hholds := holdsWord_of_mem_upperWords hword
    rw [h.words w (by simp [structureWords] at hw ⊢; tauto)] at hholds
    contradiction

/-- In texts that are alike the words are alike, and those that they begin with are the same. -/
theorem Alike.names (h : Alike s t) :
    WordsAlike ((Text.names s).map asciiUpper) ((Text.names t).map asciiUpper) ∧
      (beginsName s = true → ∃ name a b, Text.names s = name :: a ∧ Text.names t = name :: b ∧
        WordsAlike (a.map asciiUpper) (b.map asciiUpper)) := by
  induction h with
  | nil => exact ⟨.nil, fun h => absurd h (by decide)⟩
  | @cons c s t rest ih =>
      have hbegins : beginsName t = beginsName s := by
        have hhead := rest.head?
        cases s <;> cases t <;> simp_all [beginsName]
      by_cases hc : CharClass.isName c = true
      · rw [Text.names, Text.names, if_pos hc, if_pos hc, hbegins]
        by_cases hname : beginsName s = true
        · obtain ⟨name, a, b, hs, ht, hab⟩ := ih.2 hname
          rw [if_pos hname, if_pos hname, hs, ht]
          exact ⟨.cons _ hab, fun _ => ⟨c :: name, a, b, rfl, rfl, hab⟩⟩
        · rw [if_neg hname, if_neg hname]
          exact ⟨.cons _ ih.1, fun _ => ⟨[c], _, _, rfl, rfl, ih.1⟩⟩
      · rw [Bool.not_eq_true] at hc
        rw [names_cons_of_not_isName hc, names_cons_of_not_isName hc]
        refine ⟨ih.1, fun hname => ?_⟩
        change CharClass.isName c = true at hname
        rw [hc] at hname
        contradiction
  | @name opening closing r x y s t delimits left right rest ih =>
      have hopening := isName_of_steers (steers_of_delimits delimits).1
      have hclosing := isName_of_steers (steers_of_delimits delimits).2
      have hsplit (x s : Text) : Text.names (opening :: (x ++ closing :: s)) =
          Text.names x ++ Text.names s := by
        have hbegins : beginsName (closing :: s) = false := hclosing
        rw [names_cons_of_not_isName hopening, names_append (by rw [hbegins, Bool.and_false]),
          names_cons_of_not_isName hclosing]
      constructor
      · have hwords {s x : Text} (hx : QuietBefore s x) :
            QuietWords ((Text.names s).map asciiUpper) ((Text.names x).map asciiUpper) :=
          upperWords_eq s ▸ upperWords_eq x ▸ hx.upperWords
        rw [hsplit, hsplit, List.map_append, List.map_append]
        exact .names (hwords left) (hwords right) ih.1
      · intro hname
        change CharClass.isName opening = true at hname
        rw [hopening] at hname
        contradiction

theorem lastClauseFrom_of_open_none {words : List Text}
    (h : ∀ word ∈ words, among (clauseWords ++ ["BY"]) word = false) (last : Option Text)
    (previous : Text) (rest : List Text) : lastClauseFrom last previous (words ++ rest) =
      lastClauseFrom last (words.getLast?.getD previous) rest := by
  induction words generalizing previous with
  | nil => rfl
  | cons word words ih =>
      have hword := h word List.mem_cons_self
      rw [among_append, Bool.or_eq_false_iff] at hword
      have hby : (word == "BY".toList) = false := by
        rw [Bool.eq_false_iff, ne_eq, beq_iff_eq]
        rintro rfl
        exact absurd hword.2 (by decide)
      rw [List.cons_append, lastClauseFrom, hby, hword.1, List.getLast?_cons]
      simp only [Bool.false_and, Bool.false_eq_true, if_false, Option.getD_some]
      exact ih (fun w hw => h w (List.mem_cons_of_mem word hw)) word

/-- The word before a list only counts if it opens a clause together with the first one. -/
theorem WordsAlike.lastClauseFrom {a b : List Text} (h : WordsAlike a b) {p q : Text}
    (hpq : p = q ∨ (a.head? = some "BY".toList → among pairWords p = false) ∧
      (b.head? = some "BY".toList → among pairWords q = false)) (last : Option Text) :
    Completion.lastClauseFrom last p a = Completion.lastClauseFrom last q b := by
  induction h generalizing p q last with
  | nil => rfl
  | cons word rest ih =>
      have hpair : (if (word == "BY".toList && among pairWords p) = true then
            some (p ++ ' ' :: word)
          else if among clauseWords word = true then some word else last) =
          (if (word == "BY".toList && among pairWords q) = true then some (q ++ ' ' :: word)
          else if among clauseWords word = true then some word else last) := by
        rcases hpq with rfl | ⟨hp, hq⟩
        · rfl
        · by_cases hby : word = "BY".toList
          · rw [hp (congrArg some hby), hq (congrArg some hby), Bool.and_false]
            rfl
          · rw [beq_eq_false_iff_ne.mpr hby, Bool.false_and]
            rfl
      rw [Completion.lastClauseFrom, Completion.lastClauseFrom, hpair]
      exact ih (Or.inl rfl) _
  | names left right rest ih =>
      rw [lastClauseFrom_of_open_none left.open_none, lastClauseFrom_of_open_none right.open_none]
      apply ih
      right
      have hlast {words rest : List Text} (hwords : QuietWords rest words) (previous : Text)
          (hby : rest.head? = some "BY".toList) :
          among pairWords (words.getLast?.getD previous) = false := by
        obtain ⟨word, hword⟩ : ∃ word, words.getLast? = some word :=
          ⟨_, List.getLast?_eq_some_getLast hwords.ne_nil⟩
        rw [hword]
        exact hwords.unpaired hby word hword
      exact ⟨hlast left p, hlast right q⟩

theorem Alike.lastClause? (h : Alike s t) :
    Completion.lastClause? s = Completion.lastClause? t := by
  rw [Completion.lastClause?, Completion.lastClause?, upperWords_eq, upperWords_eq]
  exact h.names.1.lastClauseFrom (Or.inl rfl) none

/-- A word in upper case stands in a text, in any case, if it is one of its words. -/
theorem hasWord_iff {word : String} (hne : word.toList ≠ [])
    (hname : ∀ c ∈ word.toList, CharClass.isName c = true)
    (hupper : asciiUpper word.toList = word.toList) :
    hasWord t word = true ↔ word.toList ∈ upperWords t := by
  have hfold {w : Text} : w.map Char.toLower = word.toList.map Char.toLower ↔
      asciiUpper w = word.toList := by
    constructor
    · intro hw
      rw [← asciiUpper_asciiLower, asciiLower, hw, ← asciiLower, asciiUpper_asciiLower, hupper]
    · intro hw
      rw [← hw]
      exact (asciiLower_asciiUpper w).symm
  have hempty : ¬word.toList.isEmpty = true := by simpa using hne
  rw [hasWord, findWord, if_neg hempty, Option.isSome_iff_ne_none, ne_eq,
    seek_eq_none_iff (isCut_zero t), upperWords_eq, List.mem_map]
  simp only [Nat.not_lt_zero, imp_false, not_forall, not_not]
  constructor
  · rintro ⟨_, u, v, rfl, -, -, hword⟩
    obtain ⟨w, rest, rfl, hw, hbefore, hbehind⟩ := wordAt_iff.mp hword
    have hmem : ∀ c ∈ w, CharClass.isName c = true := by
      intro c hc
      rw [← isName_toUpper]
      exact hname _ (hfold.mp hw ▸ List.mem_map_of_mem hc)
    have hwne : w ≠ [] := by
      rintro rfl
      exact hne (hfold.mp hw).symm
    rw [beginsName_of_forall hne hname, Bool.true_and] at hbefore
    rw [endsName_of_forall hne hname, Bool.true_and] at hbehind
    exact ⟨w, mem_names_iff.mpr ⟨u, rest, rfl, hwne, hmem, hbefore, hbehind⟩, hfold.mp hw⟩
  · rintro ⟨name, hmem, hword⟩
    obtain ⟨u, v, rfl, hnil, -, hu, hv⟩ := mem_names_iff.mp hmem
    refine ⟨size u, u, name ++ v, rfl, by simp [hnil], rfl, ?_⟩
    rw [wordAt_iff]
    refine ⟨name, v, rfl, hfold.mpr hword, ?_, by rw [hv, Bool.and_false]⟩
    rw [endsName] at hu
    rw [hu, Bool.and_false]

theorem WordsAlike.mem_iff {a b : List Text} (h : WordsAlike a b) {word : Text}
    (hword : among clauseWords word = true) : word ∈ a ↔ word ∈ b := by
  have hnot {rest words : List Text} (hwords : QuietWords rest words) : word ∉ words := by
    intro hmem
    have hnone := hwords.open_none word hmem
    rw [among_append, hword] at hnone
    contradiction
  induction h with
  | nil => rfl
  | cons first _ ih =>
      rw [List.mem_cons, List.mem_cons]
      exact or_congr Iff.rfl ih
  | names left right _ ih =>
      rw [List.mem_append, List.mem_append, or_iff_right (hnot left), or_iff_right (hnot right)]
      exact ih

theorem Alike.hasWord_where (h : Alike s t) : hasWord s "WHERE" = hasWord t "WHERE" := by
  rw [Bool.eq_iff_iff, hasWord_iff (by decide) (by decide) (by decide),
    hasWord_iff (by decide) (by decide) (by decide), upperWords_eq, upperWords_eq]
  exact h.names.1.mem_iff (by decide)

end Completion

end SqlInsight
