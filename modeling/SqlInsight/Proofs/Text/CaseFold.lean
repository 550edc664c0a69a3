/-
Lower-case forms compared in ASCII. The Kelvin sign and the dotted capital I are the only characters
outside ASCII whose lower-case form has an ASCII letter in it, so for a word without these letters
it makes no difference whether a text is put into lower case before it is compared with the word.
-/
import SqlInsight.Text.CaseFold

namespace SqlInsight

open Text.Table (CaseRun)

namespace CaseFold

theorem mem_of_searchRuns {runs : Array CaseRun} {n lo hi : Nat} {run : CaseRun}
    (h : searchRuns runs n lo hi = some run) : run ∈ runs ∧ run.first ≤ n ∧ n ≤ run.last := by
  induction lo, hi using searchRuns.induct runs n with
  | case1 lo hi hlt middle hnone =>
      rw [searchRuns, if_pos hlt] at h
      simp [middle, hnone] at h
  | case2 lo hi hlt middle other hother hbelow ih =>
      rw [searchRuns, if_pos hlt] at h
      simp only [middle, hother, if_pos hbelow] at h
      exact ih h
  | case3 lo hi hlt middle other hother hbelow habove ih =>
      rw [searchRuns, if_pos hlt] at h
      simp only [middle, hother, if_neg hbelow, if_pos habove] at h
      exact ih h
  | case4 lo hi hlt middle other hother hbelow habove =>
      rw [searchRuns, if_pos hlt] at h
      simp only [middle, hother, if_neg hbelow, if_neg habove] at h
      obtain rfl := Option.some.inj h
      exact ⟨Array.mem_of_getElem? hother, by omega, by omega⟩
  | case5 lo hi hlt =>
      rw [searchRuns, if_neg hlt] at h
      contradiction

/-- No run but that of the Kelvin sign leads from outside ASCII into ASCII. -/
theorem lowerRuns_outside :
    (Text.Table.lowerRuns.all fun run =>
      run.last < 128 || 128 ≤ run.first + run.shift ||
        run.first == run.last && run.first + run.shift == 0x6b) = true := by
  decide +kernel

theorem applyRuns_outside {n : Nat} (h : 128 ≤ n) :
    128 ≤ applyRuns Text.Table.lowerRuns n ∨ applyRuns Text.Table.lowerRuns n = 0x6b := by
  unfold applyRuns
  cases hfound : searchRuns Text.Table.lowerRuns n 0 Text.Table.lowerRuns.size with
  | none => exact Or.inl h
  | some run =>
      obtain ⟨hmem, hfirst, hlast⟩ := mem_of_searchRuns hfound
      have hrun := Array.all_eq_true_iff_forall_mem.mp lowerRuns_outside run hmem
      simp only [Bool.or_eq_true, Bool.and_eq_true, decide_eq_true_eq, beq_iff_eq] at hrun
      simp only
      split
      · omega
      · exact Or.inl h

/-- Whether a character is in ASCII and begins the lower-case form of no character outside it. -/
def isPlain (c : Char) : Bool :=
  c.toNat < 128 && c != '\x00' && c != 'k' && c != 'i'

theorem toLower_of_le {c : Char} (h : 128 ≤ c.toNat) : c.toLower = c := by
  apply dif_neg
  rintro ⟨-, hlast⟩
  have hbound : c.toNat ≤ 90 := hlast
  omega

/-- Putting ASCII letters in lower case changes no property of characters that agrees on the two
cases of each letter. -/
theorem apply_toLower {α : Type} {f : Char → α}
    (h : ∀ n < 91, f (Char.ofNat n).toLower = f (Char.ofNat n)) (c : Char) : f c.toLower = f c := by
  by_cases hupper : c.val ≥ 'A'.val ∧ c.val ≤ 'Z'.val
  · have hlast : c.toNat ≤ 90 := hupper.2
    have hchar := h c.toNat (by omega)
    rwa [Char.ofNat_toNat] at hchar
  · have hsame : c.toLower = c := dif_neg hupper
    rw [hsame]

theorem toLower_toLower (c : Char) : c.toLower.toLower = c.toLower :=
  apply_toLower (f := Char.toLower) (by decide +kernel) c

/-- A code point outside ASCII, or no code point at all, is no plain character. -/
theorem toLower_ofNat_ne {n : Nat} (h : 128 ≤ n) {p : Char} (hp : isPlain p = true) :
    (Char.ofNat n).toLower ≠ p := by
  simp only [isPlain, Bool.and_eq_true, decide_eq_true_eq, bne_iff_ne] at hp
  rintro rfl
  by_cases hvalid : n.isValidChar
  · have hsize : (Char.ofNat n).toNat = n := by rw [Char.ofNat, dif_pos hvalid]; rfl
    rw [toLower_of_le (by omega), hsize] at hp
    omega
  · have hzero : Char.ofNat n = '\x00' := by rw [Char.ofNat, dif_neg hvalid]; rfl
    rw [hzero] at hp
    exact hp.1.1.2 (by decide)

/-- The lower-case form of a character outside ASCII begins with no plain character. -/
theorem exists_lowerFrom_cons {c : Char} (h : 128 ≤ c.toNat) (before rest : Text) :
    ∃ d more, lowerFrom before (c :: rest) = d :: more ∧ ∀ p, isPlain p = true → d.toLower ≠ p := by
  rw [lowerFrom]
  by_cases hsigma : c.toNat = 0x3a3
  · simp only [if_pos hsigma]
    refine ⟨_, _, rfl, fun p hp => ?_⟩
    split
    · exact toLower_ofNat_ne (by decide) hp
    · exact toLower_ofNat_ne (by decide) hp
  · simp only [if_neg hsigma, lowerChar, if_neg (show ¬ c.toNat < 128 by omega), mapChar]
    cases hspecial : Text.Table.lowerSpecial.find? (·.1 == c.toNat) with
    | some entry =>
        have hmem := Array.mem_of_find?_eq_some hspecial
        have hentry : entry = (0x130, [0x69, 0x307]) := by
          simpa [Text.Table.lowerSpecial] using hmem
        rw [hentry]
        refine ⟨_, _, rfl, fun p hp => ?_⟩
        rintro rfl
        revert hp
        decide
    | none =>
        refine ⟨_, _, rfl, fun p hp => ?_⟩
        rcases applyRuns_outside h with houtside | hkelvin
        · exact toLower_ofNat_ne houtside hp
        · rw [hkelvin]
          rintro rfl
          revert hp
          decide

theorem lowerFrom_cons_of_lt {c : Char} (h : c.toNat < 128) (before rest : Text) :
    lowerFrom before (c :: rest) = c.toLower :: lowerFrom (c :: before) rest := by
  rw [lowerFrom, if_neg (by omega), lowerChar, if_pos h]
  rfl

theorem asciiLower_lowerFrom_eq_iff {word : Text} (hword : ∀ p ∈ word, isPlain p = true)
    (before t : Text) :
    (lowerFrom before t).asciiLower = word ↔ t.asciiLower = word := by
  induction t generalizing before word with
  | nil => rfl
  | cons c rest ih =>
      by_cases hascii : c.toNat < 128
      · rw [lowerFrom_cons_of_lt hascii]
        cases word with
        | nil => simp [Text.asciiLower]
        | cons p more =>
            have hmore := ih (fun q hq => hword q (List.mem_cons_of_mem p hq)) (c :: before)
            simp only [Text.asciiLower, List.map_cons, List.cons.injEq, toLower_toLower] at hmore ⊢
            exact and_congr_right fun _ => hmore
      · obtain ⟨d, tail, himage, hd⟩ :=
          exists_lowerFrom_cons (Nat.le_of_not_lt hascii) before rest
        rw [himage]
        cases word with
        | nil => simp [Text.asciiLower]
        | cons p more =>
            have hp := hword p List.mem_cons_self
            have hc : c.toLower ≠ p := by
              rw [← Char.ofNat_toNat c]
              exact toLower_ofNat_ne (Nat.le_of_not_lt hascii) hp
            simp only [Text.asciiLower, List.map_cons, List.cons.injEq]
            exact ⟨fun h => absurd h.1 (hd p hp), fun h => absurd h.1 hc⟩

theorem isCased_toLower (c : Char) : CharClass.isCased c.toLower = CharClass.isCased c :=
  apply_toLower (by decide +kernel) c

theorem isCaseIgnorable_toLower (c : Char) :
    CharClass.isCaseIgnorable c.toLower = CharClass.isCaseIgnorable c :=
  apply_toLower (by decide +kernel) c

theorem lowerChar_toLower (c : Char) : lowerChar c.toLower = lowerChar c :=
  apply_toLower (by decide +kernel) c

theorem meetsCased_asciiLower (t : Text) : meetsCased t.asciiLower = meetsCased t := by
  induction t with
  | nil => rfl
  | cons c rest ih =>
      have hcons : Text.asciiLower (c :: rest) = c.toLower :: Text.asciiLower rest := rfl
      unfold meetsCased at ih ⊢
      rw [hcons, List.dropWhile_cons, List.dropWhile_cons, isCaseIgnorable_toLower]
      cases CharClass.isCaseIgnorable c
      · exact isCased_toLower c
      · exact ih

theorem lowerFrom_asciiLower (before t : Text) :
    lowerFrom before.asciiLower t.asciiLower = lowerFrom before t := by
  induction t generalizing before with
  | nil => rfl
  | cons c rest ih =>
      have hcons (c : Char) (t : Text) : Text.asciiLower (c :: t) = c.toLower :: t.asciiLower := rfl
      have hsigma : (c.toLower.toNat == 0x3a3) = (c.toNat == 0x3a3) :=
        apply_toLower (f := fun c => c.toNat == 0x3a3) (by decide +kernel) c
      have hiff : c.toLower.toNat = 0x3a3 ↔ c.toNat = 0x3a3 := by
        rw [← beq_iff_eq, hsigma, beq_iff_eq]
      rw [hcons, lowerFrom, lowerFrom, ← hcons c before, ih]
      simp only [hiff, lowerChar_toLower, meetsCased_asciiLower]

end CaseFold

/-- Names that agree in any ASCII case have the same lower-case form. -/
theorem Text.lower_eq_of_sameAscii {a b : Text} (h : a.sameAscii b = true) : a.lower = b.lower := by
  have hsame : a.asciiLower = b.asciiLower := beq_iff_eq.mp h
  have hlower (t : Text) : t.asciiLower.lower = t.lower := CaseFold.lowerFrom_asciiLower [] t
  rw [← hlower a, hsame, hlower b]

/-- A word of plain characters is compared alike before and after a text is put in lower case. -/
theorem Text.sameAscii_lower {word : Text}
    (hword : ∀ p ∈ word.asciiLower, CaseFold.isPlain p = true) (t : Text) :
    t.lower.sameAscii word = t.sameAscii word := by
  rw [Bool.eq_iff_iff, sameAscii, sameAscii, beq_iff_eq, beq_iff_eq]
  exact CaseFold.asciiLower_lowerFrom_eq_iff hword [] t

end SqlInsight
