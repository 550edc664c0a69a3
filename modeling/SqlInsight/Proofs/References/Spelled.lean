/-
Texts of words, signs and names in brackets, as lists of tables are. Masks leave them as they are.
What the searches of a text that cannot be read find in one, they find in one of its words or
between the brackets of one of its names: neither brackets nor signs are part of what they look for.
-/
import SqlInsight.Proofs.Text.Code
import SqlInsight.Proofs.Text.Matches

namespace SqlInsight

namespace Text

/-- An ASCII letter, a digit or an underscore. -/
def isPlain (c : Char) : Bool :=
  c.isAlphanum || c == '_'

/-- Whether a text is a word of plain characters that does not begin with a digit. -/
def isPlainName (t : Text) : Bool :=
  (t.head?.any fun c => !c.isDigit) && t.all isPlain

theorem toNat_of_isPlain {c : Char} (h : isPlain c = true) : c.toNat < 128 := by
  change ((c.isUpper || c.isLower) || c.isDigit || c == '_') = true at h
  simp only [Bool.or_eq_true, beq_iff_eq] at h
  have hbelow {last : Char} (hlast : last.toNat < 128) (hc : c.val ≤ last.val) : c.toNat < 128 :=
    Nat.lt_of_le_of_lt (UInt32.le_iff_toNat_le.mp hc) hlast
  rcases h with ((hupper | hlower) | hdigit) | rfl
  · have hrange : 'A'.val ≤ c.val ∧ c.val ≤ 'Z'.val := of_decide_eq_true hupper
    exact hbelow (by decide) hrange.2
  · have hrange := (Bool.and_eq_true _ _).mp hlower
    exact hbelow (by decide) (of_decide_eq_true hrange.2)
  · have hrange := (Bool.and_eq_true _ _).mp hdigit
    exact hbelow (by decide) (of_decide_eq_true hrange.2)
  · decide

/-- A property of characters holds of all plain ones if it holds of those in ASCII. -/
theorem of_isPlain {f : Char → Bool}
    (hf : ∀ n < 128, isPlain (Char.ofNat n) = true → f (Char.ofNat n) = true) {c : Char}
    (h : isPlain c = true) : f c = true := by
  have hcode := hf c.toNat (toNat_of_isPlain h)
  rw [Char.ofNat_toNat] at hcode
  exact hcode h

theorem isWord_of_isPlain {c : Char} (h : isPlain c = true) : CharClass.isWord c = true :=
  of_isPlain (by decide) h

theorem isName_of_isPlain {c : Char} (h : isPlain c = true) : CharClass.isName c = true :=
  of_isPlain (by decide) h

/-- A character that ends a word and is no part of what introduces anything. -/
def isSign (c : Char) : Bool :=
  !CharClass.isWord c && staysInCode c && c != '('

theorem isSign_of_isBlank {c : Char} (h : CharClass.isBlank c = true) : isSign c = true := by
  have hopen : c ≠ '(' := by
    rintro rfl
    exact absurd h (by decide)
  simp [isSign, isWord_of_isBlank h, staysInCode_of_isBlank h, hopen]

theorem isWord_of_isSign {c : Char} (h : isSign c = true) : CharClass.isWord c = false := by
  simp only [isSign, Bool.and_eq_true, Bool.not_eq_true'] at h
  exact h.1.1

end Text

namespace References

open Text

/-- A text of words of which `W` holds, signs, and names in brackets of which `P` holds. -/
inductive Spelled (W P : Text → Prop) : Text → Prop where
  | nil : Spelled W P []
  | word {w t : Text} (plain : ∀ c ∈ w, isPlain c = true) (allowed : W w)
      (ends : ∀ c ∈ t.head?, CharClass.isWord c = false) (rest : Spelled W P t) :
      Spelled W P (w ++ t)
  | sign {c : Char} {t : Text} (sign : isSign c = true) (rest : Spelled W P t) :
      Spelled W P (c :: t)
  | name {inner t : Text} (closing : ']' ∉ inner) (allowed : P inner)
      (ends : t.head? ≠ some ']') (rest : Spelled W P t) :
      Spelled W P ('[' :: (inner ++ ']' :: t))

variable {W P : Text → Prop} {t : Text}

theorem Spelled.mono (h : Spelled W P t) {W' : Text → Prop} (hW : ∀ w, W w → W' w) :
    Spelled W' P t := by
  induction h with
  | nil => exact .nil
  | word plain allowed ends _ ih => exact .word plain (hW _ allowed) ends ih
  | sign sign _ ih => exact .sign sign ih
  | name closing allowed ends _ ih => exact .name closing allowed ends ih

theorem Spelled.mask (h : Spelled W P t) : t.mask .literals = t := by
  induction h with
  | nil => rfl
  | word plain _ _ _ ih =>
      rw [mask_append_of_staysInCode .literals
        fun c hc => (staysInCode_of_isName (isName_of_isPlain (plain c hc))).1, ih]
  | @sign c t sign _ ih =>
      simp only [isSign, Bool.and_eq_true] at sign
      rw [← List.singleton_append, mask_append_of_staysInCode .literals (a := [c]) (by
        simp [sign.1.2]), ih]
  | name closing _ ends _ ih => rw [mask_delimited .brackets closing ends (by decide), ih]

/-- Whether the body of a common table expression begins somewhere in a text. -/
def holdsBody : Text → Bool
  | [] => false
  | c :: rest => opensBody (c :: rest) || holdsBody rest

/-- Whether a word that introduces tables is found in a text. -/
def holdsTableWord (t : Text) : Bool :=
  !(allMatches tableListAt? t).isEmpty

theorem holdsBody_of_isSuffix {w : Text} (hw : w <:+ t) (h : opensBody w = true) :
    holdsBody t = true := by
  induction t with
  | nil =>
      rw [List.suffix_nil.mp hw] at h
      contradiction
  | cons c rest ih =>
      rw [holdsBody, Bool.or_eq_true]
      rcases List.suffix_cons_iff.mp hw with rfl | hrest
      · exact Or.inl h
      · exact Or.inr (ih hrest)

/-- A closing bracket ends what may open a body. -/
theorem opensBody_append_bracket (v t : Text) :
    opensBody (v ++ ']' :: t) = opensBody v := by
  have htrim (v : Text) : trimStart (v ++ ']' :: t) = trimStart v ++ ']' :: t :=
    trimStart_append_stop (by decide) v t
  have hword : afterWord? "as".toList (v.trimStart ++ ']' :: t) =
      (afterWord? "as".toList v.trimStart).map (· ++ ']' :: t) :=
    afterWord?_append_stop (by decide) v.trimStart t
  unfold opensBody
  rw [htrim, hword]
  cases afterWord? "as".toList v.trimStart with
  | none => rfl
  | some rest =>
      simp only [Option.map_some, htrim]
      cases rest.trimStart <;> rfl

theorem trimStart_cons_of_isBlank {c : Char} (h : CharClass.isBlank c = true) (t : Text) :
    trimStart (c :: t) = trimStart t :=
  List.dropWhile_cons_of_pos h

theorem trimStart_cons_of_not_isBlank {c : Char} (h : CharClass.isBlank c = false) (t : Text) :
    trimStart (c :: t) = c :: t :=
  List.dropWhile_cons_of_neg (by simp [h])

/-- A parenthesis does not come next. -/
theorem Spelled.head?_trimStart (h : Spelled W P t) : t.trimStart.head? ≠ some '(' := by
  induction h with
  | nil => simp [trimStart]
  | @word w t plain _ _ _ ih =>
      cases w with
      | nil => exact ih
      | cons c w =>
          have hc := isWord_of_isPlain (plain c List.mem_cons_self)
          rw [List.cons_append, trimStart_cons_of_not_isBlank (isBlank_of_isWord hc)]
          rintro ⟨⟩
          exact absurd hc (by decide)
  | @sign c t sign _ ih =>
      by_cases hc : CharClass.isBlank c = true
      · rwa [trimStart_cons_of_isBlank hc]
      · rw [trimStart_cons_of_not_isBlank (by simpa using hc)]
        rintro ⟨⟩
        exact absurd sign (by decide)
  | name => simp [trimStart_cons_of_not_isBlank (show CharClass.isBlank '[' = false by decide)]

theorem opensBody_cons_of_isBlank {c : Char} (h : CharClass.isBlank c = true) (t : Text) :
    opensBody (c :: t) = opensBody t := by
  rw [opensBody, trimStart_cons_of_isBlank h, ← opensBody]

theorem isLetter_of_not_isWord {letter c : Char} (hletter : CharClass.isWord letter = true)
    (hc : CharClass.isWord c = false) : isLetter letter c = false := by
  rw [Bool.eq_false_iff]
  intro h
  rw [isWord_of_isLetter hletter h] at hc
  contradiction

/-- Behind what begins with no letter no body comes. -/
theorem opensBody_cons_of_not_isWord {c : Char} (hc : CharClass.isWord c = false)
    (hblank : CharClass.isBlank c = false) (t : Text) : opensBody (c :: t) = false := by
  have hletter : isLetter 'a' c = false := isLetter_of_not_isWord (by decide) hc
  simp [opensBody, trimStart_cons_of_not_isBlank hblank, afterWord?, hletter]

/-- A word opens a body only if a parenthesis comes next. -/
theorem opensBody_word {w : Text} (hne : w ≠ []) (plain : ∀ c ∈ w, isPlain c = true)
    (ends : ∀ c ∈ t.head?, CharClass.isWord c = false) (hopen : t.trimStart.head? ≠ some '(') :
    opensBody (w ++ t) = false := by
  obtain ⟨c, w, rfl⟩ := List.exists_cons_of_ne_nil hne
  have hblank {d : Char} (hd : d ∈ c :: w) : CharClass.isBlank d = false :=
    isBlank_of_isWord (isWord_of_isPlain (plain d hd))
  rw [opensBody, List.cons_append, trimStart_cons_of_not_isBlank (hblank List.mem_cons_self)]
  by_cases hc : isLetter 'a' c = true
  · match w with
    | [] =>
        cases t with
        | nil => simp [afterWord?, hc]
        | cons d t =>
            have hd : isLetter 's' d = false := isLetter_of_not_isWord (by decide) (ends d rfl)
            simp [afterWord?, hc, hd]
    | d :: others =>
        by_cases hd : isLetter 's' d = true
        · have hafter : afterWord? "as".toList (c :: (d :: others ++ t)) = some (others ++ t) := by
            simp [afterWord?, hc, hd]
          rw [hafter]
          simp only [beq_eq_false_iff_ne]
          cases others with
          | nil => exact hopen
          | cons e others =>
              rw [List.cons_append, trimStart_cons_of_not_isBlank (hblank (by simp))]
              rintro ⟨⟩
              exact absurd (plain '(' (by simp)) (by decide)
        · simp [afterWord?, hc, hd]
  · simp [afterWord?, hc]

theorem holdsBody_word_append {w : Text} (plain : ∀ c ∈ w, isPlain c = true)
    (ends : ∀ c ∈ t.head?, CharClass.isWord c = false) (hopen : t.trimStart.head? ≠ some '(') :
    holdsBody (w ++ t) = holdsBody t := by
  induction w with
  | nil => rfl
  | cons c w ih =>
      have hword := opensBody_word (List.cons_ne_nil c w) plain ends hopen
      rw [List.cons_append] at hword ⊢
      rw [holdsBody, hword, ih fun d hd => plain d (List.mem_cons_of_mem c hd), Bool.false_or]

theorem holdsBody_append_bracket {inner : Text} (h : holdsBody inner = false) (t : Text) :
    holdsBody (inner ++ ']' :: t) = holdsBody t := by
  induction inner with
  | nil =>
      rw [List.nil_append, holdsBody, opensBody_cons_of_not_isWord (by decide) (by decide),
        Bool.false_or]
  | cons c inner ih =>
      obtain ⟨hhere, hrest⟩ := Bool.or_eq_false_iff.mp h
      rw [List.cons_append, holdsBody, ← List.cons_append, opensBody_append_bracket, hhere,
        ih hrest, Bool.false_or]

/-- A body of a common table expression only begins between the brackets of a name. -/
theorem Spelled.holdsBody (h : Spelled W P t)
    (hP : ∀ inner, P inner → References.holdsBody inner = false) :
    References.holdsBody t = false := by
  induction h with
  | nil => rfl
  | word plain _ ends rest ih => rw [holdsBody_word_append plain ends rest.head?_trimStart, ih]
  | @sign c t sign _ ih =>
      rw [References.holdsBody, ih, Bool.or_false]
      by_cases hc : CharClass.isBlank c = true
      · rw [opensBody_cons_of_isBlank hc]
        cases t with
        | nil => rfl
        | cons d t => exact (Bool.or_eq_false_iff.mp ih).1
      · exact opensBody_cons_of_not_isWord (isWord_of_isSign sign) (by simpa using hc) t
  | name _ allowed _ _ ih =>
      rw [References.holdsBody, holdsBody_append_bracket (hP _ allowed), ih,
        opensBody_cons_of_not_isWord (by decide) (by decide)]
      rfl

/-- The words that introduce tables. -/
def tableKeys : List Text :=
  ["from".toList, "join".toList]

theorem isWord_of_mem_tableKeys :
    ∀ key ∈ tableKeys, ∀ letter ∈ key, CharClass.isWord letter = true := by
  decide

theorem tableListAt?_eq_none {before : Option Char}
    (h : before.any CharClass.isWord = true ∨
      ∀ key ∈ tableKeys, ∀ rest, afterWord? key t = some rest → endsWord rest = false) :
    tableListAt? before t = none := by
  unfold tableListAt?
  rw [Option.bind_eq_none_iff]
  intro rest hrest
  have hkey : ∃ key ∈ tableKeys, afterWordStart? key before t = some rest := by
    rcases Option.or_eq_some_iff.mp hrest with hfrom | ⟨-, hjoin⟩
    · exact ⟨_, List.mem_cons_self, hfrom⟩
    · exact ⟨_, List.mem_cons_of_mem _ List.mem_cons_self, hjoin⟩
  obtain ⟨key, hmem, hafter⟩ := hkey
  unfold afterWordStart? at hafter
  split at hafter
  · contradiction
  · rename_i hword
    rw [if_neg]
    rw [h.resolve_left hword key hmem rest hafter]
    simp

/-- Of what stands before a place only counts whether it is part of a word. -/
theorem tableListAt?_congr {before before' : Option Char}
    (h : before.any CharClass.isWord = before'.any CharClass.isWord) (t : Text) :
    tableListAt? before t = tableListAt? before' t := by
  simp only [tableListAt?, afterWordStart?, h]

/-- A closing bracket ends a word that introduces tables like the end of the text does. -/
theorem tableListAt?_append_bracket {before : Option Char} {v : Text}
    (h : tableListAt? before v = none) (t : Text) : tableListAt? before (v ++ ']' :: t) = none := by
  have hends (rest : Text) : endsWord (rest ++ ']' :: t) = endsWord rest := by
    cases rest <;> rfl
  have hafter (key : Text) (hkey : key ∈ tableKeys) :
      afterWordStart? key before (v ++ ']' :: t) =
        (afterWordStart? key before v).map (· ++ ']' :: t) := by
    unfold afterWordStart?
    split
    · rfl
    · refine afterWord?_append_stop (fun letter hletter => ?_) v t
      exact isLetter_of_not_isWord (isWord_of_mem_tableKeys key hkey letter hletter) (by decide)
  unfold tableListAt? at h ⊢
  rw [hafter _ List.mem_cons_self, hafter _ (List.mem_cons_of_mem _ List.mem_cons_self),
    ← Option.map_or, Option.bind_map]
  cases hfound : (afterWordStart? "from".toList before v).or
      (afterWordStart? "join".toList before v) with
  | none => rfl
  | some rest =>
      rw [hfound] at h
      simp only [Option.bind_some, Function.comp_apply, hends] at h ⊢
      split at h
      · contradiction
      · rename_i hrest
        rw [if_neg hrest]

/-- What is read of a word up to its end is all of the word. -/
theorem afterWord?_word_append {key w rest : Text}
    (hkey : ∀ letter ∈ key, CharClass.isWord letter = true)
    (plain : ∀ c ∈ w, isPlain c = true) (ends : ∀ c ∈ t.head?, CharClass.isWord c = false)
    (h : afterWord? key (w ++ t) = some rest) (hends : endsWord rest = true) :
    afterWord? key w = some [] := by
  induction key generalizing w with
  | nil =>
      obtain rfl := Option.some.inj h
      cases w with
      | nil => rfl
      | cons c w =>
          simp [endsWord, isWord_of_isPlain (plain c List.mem_cons_self)] at hends
  | cons letter key ih =>
      have hletter := hkey letter List.mem_cons_self
      cases w with
      | nil =>
          cases t with
          | nil => simp [afterWord?] at h
          | cons d t =>
              rw [List.nil_append, afterWord?,
                if_neg (by simp [isLetter_of_not_isWord hletter (ends d rfl)])] at h
              contradiction
      | cons c w =>
          rw [List.cons_append, afterWord?] at h
          rw [afterWord?]
          split at h
          · rename_i hc
            rw [if_pos hc]
            exact ih (fun l hl => hkey l (List.mem_cons_of_mem letter hl))
              (fun d hd => plain d (List.mem_cons_of_mem c hd)) h
          · contradiction

/-- A word that introduces tables is only found between the brackets of a name. -/
theorem Spelled.matches (h : Spelled W P t)
    (hW : ∀ w, W w → ∀ key ∈ tableKeys, afterWord? key w ≠ some [])
    (hP : ∀ inner, P inner → holdsTableWord inner = false) (before : Option Char) :
    matchesFrom tableListAt? before 0 t = [] := by
  have hnone {before : Option Char} {c : Char} (hc : CharClass.isWord c = false) (t : Text) :
      tableListAt? before (c :: t) = none := by
    refine tableListAt?_eq_none (Or.inr fun key hkey rest hrest => ?_)
    cases key with
    | nil => exact absurd hkey (by decide)
    | cons letter key =>
        have hletter := isWord_of_mem_tableKeys _ hkey letter List.mem_cons_self
        rw [afterWord?, if_neg (by simp [isLetter_of_not_isWord hletter hc])] at hrest
        contradiction
  induction h generalizing before with
  | nil => rfl
  | @word w t plain allowed ends rest ih =>
      rw [matchesFrom_append_of_none, ih]
      intro u c v hw
      apply tableListAt?_eq_none
      rcases List.eq_nil_or_concat u with rfl | ⟨u, d, rfl⟩
      · right
        intro key hkey rest hrest
        rw [Bool.eq_false_iff]
        intro hends
        rw [← List.nil_append (c :: v), ← hw] at hrest
        exact hW w allowed key hkey
          (afterWord?_word_append (isWord_of_mem_tableKeys key hkey) plain ends hrest hends)
      · left
        rw [List.concat_eq_append, List.getLast?_concat]
        exact isWord_of_isPlain (plain d (by simp [hw]))
  | @sign c t sign _ ih => rw [matchesFrom, hnone (isWord_of_isSign sign), ih]
  | @name inner t _ allowed _ _ ih =>
      have hinner := hP inner allowed
      rw [matchesFrom, hnone (by decide)]
      rw [matchesFrom_append_of_none, matchesFrom, hnone (by decide), ih]
      intro u c v huv
      have hplace : tableListAt? (u.getLast?.or none) (c :: v) = none :=
        matchesFrom_eq_nil_iff.mp (by simpa [holdsTableWord, allMatches] using hinner) u c v huv
      refine tableListAt?_append_bracket ?_ t
      rw [← hplace]
      apply tableListAt?_congr
      cases u.getLast? with
      | none => decide
      | some d => rfl

end References

end SqlInsight
