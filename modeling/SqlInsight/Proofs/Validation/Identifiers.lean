/-
Where an identifier is written. Of the forms of a name the first one is taken that stands anywhere
from the start on, and of its places the first: outside of literals and comments, not within a
longer name, and, if the name has no qualifier, with no dot right beside it or its delimiters. A dot
that blanks, a comment or a backtick keep from the name is not seen, though it joins names as well.
-/
import SqlInsight.Proofs.Text.Beside
import SqlInsight.Proofs.Validation.Marks

namespace SqlInsight.Text

open Validation

/-- A form of a name, in any ASCII case, is written at an offset of a text as `own`, behind `before`
and before `behind`: it touches no literal and no comment, and no name goes on beside it. -/
structure FormAt (t form : Text) (n : Nat) (before own behind : List (Char × Region)) :
    Prop where
  regions : t.regions = before ++ own ++ behind
  offset : size (before.map Prod.fst) = n
  ne_nil : own ≠ []
  written : sameAscii (own.map Prod.fst) form = true
  plain : ∀ x ∈ own, x.2.isLiteralOrComment = false
  starts : beginsName form = true → endsName (before.map Prod.fst) = false
  ends : endsName form = true → beginsName (behind.map Prod.fst) = false

/-- There is a dot right beside what stands between two texts, or right beside its delimiters. -/
def BesideDot (before behind : Text) : Prop :=
  (∃ a marks, before = a ++ '.' :: marks ∧ ∀ c ∈ marks, c = '[' ∨ c = '"') ∨
    ∃ marks b, behind = marks ++ '.' :: b ∧ ∀ c ∈ marks, c = ']' ∨ c = '"'

/-- What stands between two texts, within delimiters or not, is joined to a name by a dot, with or
without blanks around it. -/
def PartOfDotted (before behind : Text) : Prop :=
  (∃ (a gap mark : Text), before = a ++ '.' :: (gap ++ mark) ∧ gap.isBlank = true ∧
      mark ∈ ["", "[", "\"", "`"].map String.toList) ∨
    ∃ (mark gap b : Text), behind = mark ++ gap ++ '.' :: b ∧ gap.isBlank = true ∧
      mark ∈ ["", "]", "\"", "`"].map String.toList

/-- No dot of a text has a blank or a backtick beside it. -/
def DotsBare (t : Text) : Prop :=
  t.IsChain fun c d => (c = '.' → CharClass.isBlank d = false ∧ d ≠ '`') ∧
    (d = '.' → CharClass.isBlank c = false ∧ c ≠ '`')

instance (t : Text) : Decidable (DotsBare t) :=
  inferInstanceAs (Decidable (List.IsChain _ t))

/-- A form of a name is written at an offset of a text and is accepted there. Without a qualifier
there must be no dot beside it. What accepts it is given the text with its literals and comments
blanked, and the offset. -/
def Acceptable (t : Text) (qualifier : Option Text) (accept : Text → Nat → Bool) (form : Text)
    (n : Nat) : Prop :=
  ∃ before own behind, FormAt t form n before own behind ∧
    (qualifier = none → ¬BesideDot (before.map Prod.fst) (behind.map Prod.fst)) ∧
    accept (t.mask .literals) n = true

/-- The first place, `start` or later, at which a form is accepted. -/
structure FirstAcceptable (t : Text) (qualifier : Option Text) (accept : Text → Nat → Bool)
    (form : Text) (start n : Nat) : Prop where
  acceptable : Acceptable t qualifier accept form n
  start_le : start ≤ n
  le : ∀ m, Acceptable t qualifier accept form m → start ≤ m → n ≤ m

section Dots

theorem head?_dropWhile_iff {p : Char → Bool} {x : Char} (hx : p x = false) (t : Text) :
    (t.dropWhile p).head? = some x ↔
      ∃ marks b, t = marks ++ x :: b ∧ ∀ c ∈ marks, p c = true := by
  constructor
  · intro hhead
    obtain ⟨b, hb⟩ := List.head?_eq_some_iff.mp hhead
    refine ⟨t.takeWhile p, b, ?_, fun c hc => List.mem_takeWhile_imp hc⟩
    rw [← hb, List.takeWhile_append_dropWhile]
  · rintro ⟨marks, b, rfl, hmarks⟩
    rw [List.dropWhile_append_of_pos hmarks, List.dropWhile_cons_of_neg (by simp [hx])]
    rfl

theorem isDottedPart_iff (before behind : Text) :
    isDottedPart before.reverse behind = true ↔ BesideDot before behind := by
  rw [isDottedPart, Bool.or_eq_true, beq_iff_eq, beq_iff_eq,
    head?_dropWhile_iff (by decide), head?_dropWhile_iff (by decide)]
  simp only [Bool.or_eq_true, beq_iff_eq]
  refine or_congr ?_ Iff.rfl
  constructor
  · rintro ⟨marks, b, hbefore, hmarks⟩
    refine ⟨b.reverse, marks.reverse, ?_, fun c hc => hmarks c (List.mem_reverse.mp hc)⟩
    rw [← List.reverse_inj, hbefore]
    simp
  · rintro ⟨a, marks, rfl, hmarks⟩
    exact ⟨marks.reverse, a.reverse, by simp, fun c hc => hmarks c (List.mem_reverse.mp hc)⟩

/-- The look for the first character of a name. -/
def nameLook : Look where
  passes _ := false
  sees := CharClass.isName
  same := by decide

/-- The look for a dot beyond delimiters that open a name, or close one. -/
def dotLook (delimiter : Char) (h : delimiter ∉ "\n '-/".toList := by decide) : Look where
  passes c := c == delimiter || c == '"'
  sees c := c == '.'
  same := by
    intro c hc
    have hne : c ≠ delimiter := fun heq => h (heq ▸ hc)
    have hall : ∀ c ∈ "\n '-/".toList, (c == '"') = false ∧ (c == '.') = false := by decide
    simp [hne, hall c hc]

theorem nameLook_at (t : Text) : nameLook.at t = beginsName t := by
  cases t with
  | nil => rfl
  | cons c rest => rfl

theorem isDottedPart_eq (before behind : Text) :
    isDottedPart before behind = ((dotLook '[').at before || (dotLook ']').at behind) := by
  have hhead (o : Option Char) : (o == some '.') = o.any (· == '.') := by cases o <;> rfl
  rw [isDottedPart, hhead, hhead]
  rfl

/-- What is tested around a part that is not masked is the same in the mask and in the text. -/
theorem tests_around {before own behind : List (Char × Region)}
    (h : (before ++ own ++ behind).IsChain Borders) (hne : own ≠ [])
    (hown : ∀ x ∈ own, x.2.isLiteralOrComment = false ∧ x.1 ≠ '\n') :
    endsName (maskOf .literals before) = endsName (before.map Prod.fst) ∧
      beginsName (maskOf .literals behind) = beginsName (behind.map Prod.fst) ∧
      isDottedPart (maskOf .literals before).reverse (maskOf .literals behind) =
        isDottedPart (before.map Prod.fst).reverse (behind.map Prod.fst) := by
  have hlook (l : Look) := look_around l h hne hown
  refine ⟨?_, ?_, ?_⟩
  · rw [endsName, endsName, ← nameLook_at, ← nameLook_at]
    exact (hlook nameLook).1
  · rw [← nameLook_at, ← nameLook_at]
    exact (hlook nameLook).2
  · rw [isDottedPart_eq, isDottedPart_eq, (hlook (dotLook '[')).1, (hlook (dotLook ']')).2]

end Dots

section Places

variable {t form : Text} {qualifier : Option Text} {accept : Text → Nat → Bool} {n : Nat}

theorem isBlank_of_map_toLower {w : Text} (hw : w.map Char.toLower = form.map Char.toLower)
    (h : ∀ c ∈ form, CharClass.isBlank c = false) : ∀ c ∈ w, CharClass.isBlank c = false := by
  intro c hc
  have hmem : c.toLower ∈ form.map Char.toLower := hw ▸ List.mem_map_of_mem hc
  obtain ⟨d, hd, hsame⟩ := List.mem_map.mp hmem
  rw [← isBlank_toLower, ← hsame, isBlank_toLower]
  exact h d hd

/-- The test of a search for a form, which is given what accepts a place by what stands before
it. -/
def formTest (t : Text) (qualifier : Option Text) (accept : Text → Nat → Bool) (form : Text) :
    Text → Text → Bool :=
  (Way.ofForm qualifier.isSome (fun before => accept (t.mask .literals) (size before)) form).holds

theorem formTest_iff (u v : Text) : formTest t qualifier accept form u.reverse v = true ↔
    form ≠ [] ∧ ∃ w rest, v = w ++ rest ∧ w.map Char.toLower = form.map Char.toLower ∧
      (beginsName form = true → endsName u = false) ∧
      (endsName form = true → beginsName rest = false) ∧
      (qualifier = none → isDottedPart u.reverse rest = false) ∧
      accept (t.mask .literals) (size u) = true := by
  have hdrop {w rest : Text} (hw : w.map Char.toLower = form.map Char.toLower) :
      (w ++ rest).drop form.length = rest := by
    have hlength : w.length = form.length := by simpa using congrArg List.length hw
    rw [← hlength, List.drop_left]
  have hqualified (dotted : Bool) : (qualifier.isSome || !dotted) = true ↔
      (qualifier = none → dotted = false) := by
    cases qualifier <;> simp
  simp only [formTest, Way.ofForm, Bool.and_eq_true, Bool.not_eq_true', List.isEmpty_eq_false_iff,
    size_reverse, wordAt_iff, hqualified, Bool.and_eq_false_imp, ← endsName.eq_1]
  constructor
  · rintro ⟨hne, ⟨⟨w, rest, rfl, hw, hbefore, hbehind⟩, hdot⟩, haccept⟩
    rw [hdrop hw] at hdot
    exact ⟨hne, w, rest, rfl, hw, hbefore, hbehind, hdot, haccept⟩
  · rintro ⟨hne, w, rest, rfl, hw, hbefore, hbehind, hdot, haccept⟩
    rw [hdrop hw]
    exact ⟨hne, ⟨⟨w, rest, rfl, hw, hbefore, hbehind⟩, hdot⟩, haccept⟩

theorem plain_of_map_toLower {own : List (Char × Region)}
    (hw : (own.map Prod.fst).map Char.toLower = form.map Char.toLower)
    (hform : ∀ c ∈ form, CharClass.isBlank c = false)
    (hplain : ∀ x ∈ own, x.2.isLiteralOrComment = false) :
    ∀ x ∈ own, x.2.isLiteralOrComment = false ∧ x.1 ≠ '\n' := by
  intro x hx
  have hblank := isBlank_of_map_toLower hw hform x.1 (List.mem_map_of_mem hx)
  exact ⟨hplain x hx, ne_of_isBlank_eq_false hblank (by decide)⟩

section Form

variable (hform : ∀ c ∈ form, CharClass.isBlank c = false)

include hform

/-- What the tests find in the mask is written in the text. -/
theorem Acceptable.of_holdsAt
    (h : HoldsAt (formTest t qualifier accept form) (t.mask .literals) n) :
    Acceptable t qualifier accept form n := by
  obtain ⟨u, v, hmask, -, rfl, htest⟩ := h
  obtain ⟨hne, w, rest, rfl, hw, hstarts, hends, hdot, haccept⟩ := (formTest_iff u v).mp htest
  have hwne : w ≠ [] := by
    rintro rfl
    exact hne (List.map_eq_nil_iff.mp hw.symm)
  rw [mask_eq_maskOf, ← List.append_assoc] at hmask
  obtain ⟨before, own, behind, hregions, rfl, hplain, rfl, rfl⟩ :=
    exists_regions_of_maskOf_append (isBlank_of_map_toLower hw hform) hwne hmask
  have hown := plain_of_map_toLower hw hform fun x hx => by
    rw [← Region.isMasked_literals]
    exact hplain x hx
  have hownne : own ≠ [] := fun hnil => hwne (by rw [hnil]; rfl)
  obtain ⟨hbefore, hbehind, hdotted⟩ := tests_around (hregions ▸ isChain_regions t) hownne hown
  rw [hbefore] at hstarts
  rw [hbehind] at hends
  have hat : FormAt t form (size (maskOf .literals before)) before own behind :=
    ⟨hregions, (size_maskOf _ _).symm, hownne, (sameAscii_iff _ _).mpr hw,
      fun x hx => (hown x hx).1, hstarts, hends⟩
  refine ⟨before, own, behind, hat, fun hnone => ?_, haccept⟩
  rw [← isDottedPart_iff, ← hdotted, hdot hnone]
  simp

/-- What is written in the text is found in the mask by the tests. -/
theorem Acceptable.holdsAt (h : Acceptable t qualifier accept form n) :
    HoldsAt (formTest t qualifier accept form) (t.mask .literals) n := by
  obtain ⟨before, own, behind, hat, hdot, haccept⟩ := h
  have hw := (sameAscii_iff _ _).mp hat.written
  have hmask : maskOf .literals own = own.map Prod.fst :=
    maskOf_of_forall fun x hx => by rw [Region.isMasked_literals, hat.plain x hx]
  obtain ⟨hbefore, hbehind, hdotted⟩ := tests_around (hat.regions ▸ isChain_regions t) hat.ne_nil
    (plain_of_map_toLower hw hform hat.plain)
  have hownne : own.map Prod.fst ≠ [] := by simpa using hat.ne_nil
  have hsize : size (maskOf .literals before) = n := by rw [size_maskOf, hat.offset]
  refine ⟨maskOf .literals before, own.map Prod.fst ++ maskOf .literals behind, ?_,
    List.append_ne_nil_of_left_ne_nil hownne _, hsize, (formTest_iff _ _).mpr ⟨?_, _, _, rfl, hw,
    ?_, ?_, fun hnone => ?_, ?_⟩⟩
  · rw [mask_eq_maskOf, hat.regions, maskOf_append, maskOf_append, hmask, List.append_assoc]
  · rintro rfl
    exact hownne (List.map_eq_nil_iff.mp hw)
  · rw [hbefore]
    exact hat.starts
  · rw [hbehind]
    exact hat.ends
  · rw [hdotted, Bool.eq_false_iff, ne_eq, isDottedPart_iff]
    exact hdot hnone
  · rw [hsize]
    exact haccept

/-- The tests in the mask find the places where the form is written in the text. -/
theorem holdsAt_formTest_iff :
    HoldsAt (formTest t qualifier accept form) (t.mask .literals) n ↔
      Acceptable t qualifier accept form n :=
  ⟨Acceptable.of_holdsAt hform, Acceptable.holdsAt hform⟩

end Form

theorem Acceptable.isCut (h : Acceptable t qualifier accept form n) :
    IsCut t n ∧ IsCut t (n + size form) := by
  obtain ⟨before, own, behind, hat, -, -⟩ := h
  have hsize : size (own.map Prod.fst) = size form := by
    rw [← size_map_toLower, (sameAscii_iff _ _).mp hat.written, size_map_toLower]
  have ht : t = before.map Prod.fst ++ own.map Prod.fst ++ behind.map Prod.fst := by
    rw [← List.map_append, ← List.map_append, ← hat.regions, map_fst_regions]
  rw [← hat.offset, ← hsize, ← size_append]
  exact ⟨⟨_, _, by rw [ht, List.append_assoc], rfl⟩, _, _, ht, rfl⟩

theorem firstAcceptable_iff (hform : ∀ c ∈ form, CharClass.isBlank c = false) {start : Nat} :
    FirstFrom (formTest t qualifier accept form) (t.mask .literals) start n ↔
      FirstAcceptable t qualifier accept form start n := by
  constructor
  · rintro ⟨hholds, hstart, hle⟩
    refine ⟨(holdsAt_formTest_iff hform).mp hholds, hstart, fun m hm => ?_⟩
    exact hle m ((holdsAt_formTest_iff hform).mpr hm)
  · rintro ⟨hacceptable, hstart, hle⟩
    refine ⟨(holdsAt_formTest_iff hform).mpr hacceptable, hstart, fun m hm => ?_⟩
    exact hle m ((holdsAt_formTest_iff hform).mp hm)

theorem DotsBare.behind {a b : Text} {c : Char} (h : DotsBare (a ++ '.' :: c :: b)) :
    CharClass.isBlank c = false ∧ c ≠ '`' :=
  (List.isChain_cons_cons.mp h.right_of_append).1.1 rfl

theorem DotsBare.before {a b : Text} {c : Char} (h : DotsBare (a ++ c :: '.' :: b)) :
    CharClass.isBlank c = false ∧ c ≠ '`' :=
  (List.isChain_cons_cons.mp h.right_of_append).1.2 rfl

/-- In a text whose dots are bare, only a dot right beside a name or its delimiters joins it. -/
theorem besideDot_of_partOfDotted {u w v : Text} (hbare : DotsBare (u ++ w ++ v))
    (h : PartOfDotted u v) : BesideDot u v := by
  rcases h with ⟨a, gap, mark, rfl, hgap, hmark⟩ | ⟨mark, gap, b, rfl, hgap, hmark⟩
  · simp only [List.append_assoc, List.cons_append] at hbare
    cases gap with
    | cons c gap =>
        have hc := List.all_eq_true.mp hgap c List.mem_cons_self
        rw [hbare.behind.1] at hc
        contradiction
    | nil =>
        refine Or.inl ⟨a, mark, rfl, ?_⟩
        simp only [List.map_cons, List.map_nil, List.mem_cons, List.not_mem_nil, or_false] at hmark
        rcases hmark with rfl | rfl | rfl | rfl
        · decide
        · decide
        · decide
        · exact absurd rfl hbare.behind.2
  · rcases List.eq_nil_or_concat gap with rfl | ⟨gap, c, rfl⟩
    · rw [List.append_nil] at hbare ⊢
      refine Or.inr ⟨mark, b, rfl, ?_⟩
      simp only [List.map_cons, List.map_nil, List.mem_cons, List.not_mem_nil, or_false] at hmark
      rcases hmark with rfl | rfl | rfl | rfl
      · decide
      · decide
      · decide
      · exact absurd rfl hbare.before.2
    · have hc := List.all_eq_true.mp hgap c (by simp)
      have hsplit : u ++ w ++ (mark ++ gap.concat c ++ '.' :: b) =
          (u ++ w ++ mark ++ gap) ++ c :: '.' :: b := by
        simp
      rw [hsplit] at hbare
      rw [hbare.before.1] at hc
      contradiction

theorem not_partOfDotted (hunqualified : qualifier = none) (hbare : DotsBare (t.mask .literals))
    (hform : ∀ c ∈ form, CharClass.isBlank c = false)
    (h : Acceptable t qualifier accept form n) :
    ¬PartOfDotted ((t.mask .literals).takeBytes n)
      ((t.mask .literals).dropBytes (n + size form)) := by
  obtain ⟨u, v, hmask, -, rfl, htest⟩ := (holdsAt_formTest_iff hform).mpr h
  obtain ⟨-, w, rest, rfl, hw, -, -, hdot, -⟩ := (formTest_iff u v).mp htest
  have hsize : size w = size form := by rw [← size_map_toLower, hw, size_map_toLower]
  rw [← List.append_assoc] at hmask
  rw [← hsize, ← size_append, hmask, dropBytes_size_append, List.append_assoc,
    takeBytes_size_append]
  intro hpart
  rw [hmask] at hbare
  have hbeside := (isDottedPart_iff _ _).mpr (besideDot_of_partOfDotted hbare hpart)
  rw [hdot hunqualified] at hbeside
  contradiction

/-- A name without a qualifier is looked for in brackets, and then bare. -/
theorem identifierForms_none (name : Text) :
    identifierForms none name = ['[' :: name ++ [']'], name] := rfl

/-- A name with a qualifier is looked for in brackets without it; then behind it, first in brackets
and then bare, each time with the qualifier bare first; and then bare without it. -/
theorem identifierForms_some (q name : Text) :
    identifierForms (some q) name =
      ['[' :: name ++ [']'], q ++ '.' :: ('[' :: name ++ [']']),
        ('[' :: q ++ [']']) ++ '.' :: ('[' :: name ++ [']']), q ++ '.' :: name,
        ('[' :: q ++ [']']) ++ '.' :: name, name] := rfl

theorem isBlank_of_mem_identifierForms {name : Text}
    (hname : ∀ c ∈ name, CharClass.isBlank c = false)
    (hqualifier : ∀ q, qualifier = some q → ∀ c ∈ q, CharClass.isBlank c = false)
    (h : form ∈ identifierForms qualifier name) : ∀ c ∈ form, CharClass.isBlank c = false := by
  have hbracket {x : Text} (hx : ∀ c ∈ x, CharClass.isBlank c = false) :
      ∀ c ∈ bracket x, CharClass.isBlank c = false := by
    intro c hc
    rcases List.mem_cons.mp hc with rfl | hc
    · decide
    · rcases List.mem_append.mp hc with hc | hc
      · exact hx c hc
      · rw [List.mem_singleton.mp hc]
        decide
  have hjoin {x y : Text} (hx : ∀ c ∈ x, CharClass.isBlank c = false)
      (hy : ∀ c ∈ y, CharClass.isBlank c = false) :
      ∀ c ∈ x ++ '.' :: y, CharClass.isBlank c = false := by
    intro c hc
    rcases List.mem_append.mp hc with hc | hc
    · exact hx c hc
    · rcases List.mem_cons.mp hc with rfl | hc
      · decide
      · exact hy c hc
  cases qualifier with
  | none =>
      rw [identifierForms_none] at h
      rcases List.mem_pair.mp h with rfl | rfl
      · exact hbracket hname
      · exact hname
  | some q =>
      have hq := hqualifier q rfl
      rw [identifierForms_some] at h
      simp only [List.mem_cons, List.not_mem_nil, or_false] at h
      rcases h with rfl | rfl | rfl | rfl | rfl | rfl
      · exact hbracket hname
      · exact hjoin hq (hbracket hname)
      · exact hjoin (hbracket hq) (hbracket hname)
      · exact hjoin hq hname
      · exact hjoin (hbracket hq) hname
      · exact hname

theorem locateIdentifierFrom_eq_findSome? (t : Text) (qualifier : Option Text) (name : Text)
    (start : Nat) (accept : Text → Nat → Bool) :
    (t.locateIdentifierFrom qualifier name start fun before =>
      accept (t.mask .literals) (size before)) =
      (identifierForms qualifier name).findSome? fun form =>
        (seek (formTest t qualifier accept form) start (t.mask .literals)).map (·, size form) := by
  rw [Validation.locateIdentifierFrom_eq, waysOf, List.findSome?_map]
  rfl

/-- A place is found exactly if a form of the name is accepted anywhere from the start on. It is
the first place at which the first such form is accepted, and it begins and ends between characters.
If the name has no qualifier and the dots of the text, but for literals and comments, are bare, it
is no part of a dotted name. -/
theorem locateIdentifierFrom_exact (t : Text) (qualifier : Option Text) (name : Text)
    (start : Nat) (accept : Text → Nat → Bool)
    (hname : ∀ c ∈ name, CharClass.isBlank c = false)
    (hqualifier : ∀ q, qualifier = some q → ∀ c ∈ q, CharClass.isBlank c = false)
    (hstart : t.isBoundary start = true) :
    ((t.locateIdentifierFrom qualifier name start fun before =>
        accept (t.mask .literals) (size before)) = none ↔
      ∀ form ∈ identifierForms qualifier name, ∀ n,
        Acceptable t qualifier accept form n → n < start) ∧
    ∀ n length, (t.locateIdentifierFrom qualifier name start fun before =>
        accept (t.mask .literals) (size before)) = some (n, length) →
      t.isBoundary n = true ∧ t.isBoundary (n + length) = true ∧
      (∃ preferred form others, identifierForms qualifier name = preferred ++ form :: others ∧
        length = size form ∧ FirstAcceptable t qualifier accept form start n ∧
        ∀ other ∈ preferred, ∀ m, Acceptable t qualifier accept other m → m < start) ∧
      (qualifier = none → DotsBare (t.mask .literals) →
        ¬PartOfDotted ((t.mask .literals).takeBytes n)
          ((t.mask .literals).dropBytes (n + length))) := by
  have hcut : IsCut (t.mask .literals) start := ((isBoundary_iff_isCut start t).mp hstart).mask _
  have hforms {form : Text} (hmem : form ∈ identifierForms qualifier name) :=
    isBlank_of_mem_identifierForms hname hqualifier hmem
  have hnone {form : Text} (hmem : form ∈ identifierForms qualifier name) :
      (seek (formTest t qualifier accept form) start (t.mask .literals)).map (·, size form) = none ↔
        ∀ n, Acceptable t qualifier accept form n → n < start := by
    rw [Option.map_eq_none_iff, seek_eq_none_iff hcut]
    simp only [holdsAt_formTest_iff (hforms hmem)]
  rw [locateIdentifierFrom_eq_findSome?]
  constructor
  · rw [List.findSome?_eq_none_iff]
    exact forall₂_congr fun form hmem => hnone hmem
  · intro n length hfound
    obtain ⟨preferred, form, others, heq, hform, hpreferred⟩ :=
      List.findSome?_eq_some_iff.mp hfound
    have hmem : form ∈ identifierForms qualifier name := by rw [heq]; simp
    obtain ⟨n', hseek, hplace⟩ := Option.map_eq_some_iff.mp hform
    obtain ⟨rfl, rfl⟩ := Prod.mk.inj hplace
    have hfirst := (firstAcceptable_iff (hforms hmem)).mp ((seek_eq_some_iff hcut).mp hseek)
    obtain ⟨hbegin, hend⟩ := hfirst.acceptable.isCut
    refine ⟨(isBoundary_iff_isCut _ t).mpr hbegin, (isBoundary_iff_isCut _ t).mpr hend,
      ⟨preferred, form, others, heq, rfl, hfirst, fun other hother => ?_⟩,
      fun hunqualified hbare => ?_⟩
    · have hmem' : other ∈ identifierForms qualifier name := by
        rw [heq]
        exact List.mem_append_left _ hother
      exact (hnone hmem').mp (hpreferred other hother)
    · exact not_partOfDotted hunqualified hbare (hforms hmem) hfirst.acceptable

/-- Of the places of a name, in any case, that in a literal and that behind a dot are passed over,
and the bare one is not taken before the one in brackets. -/
theorem locateIdentifierFrom_bracketed :
    let t : Text := "SELECT 'Id', u.Id, Id, [id] FROM Users u".toList
    FirstAcceptable t none (fun _ _ => true) "[Id]".toList 0 23 ∧
      ¬PartOfDotted ((t.mask .literals).takeBytes 23) ((t.mask .literals).dropBytes 27) := by
  intro t
  obtain ⟨-, -, ⟨preferred, form, others, hforms, hlength, hfirst, -⟩, hpart⟩ :=
    (locateIdentifierFrom_exact t none "Id".toList 0 (fun _ _ => true) (by decide) (by simp)
      (by decide)).2 23 4 (by decide +kernel)
  refine ⟨?_, hpart rfl (by decide +kernel)⟩
  have hmem : form ∈ identifierForms none "Id".toList := by
    rw [hforms]
    exact List.mem_append_right preferred List.mem_cons_self
  rcases List.mem_pair.mp hmem with rfl | rfl
  · exact hfirst
  · contradiction

/-- A dot that blanks keep from the name is not seen: the name behind it is taken for one without a
qualifier, though another one follows. -/
theorem locateIdentifier_behind_spaced_dot :
    let t : Text := "SELECT u . Id, Id FROM Users u".toList
    t.locateIdentifier none "Id".toList = some (11, 2) ∧
      PartOfDotted ((t.mask .literals).takeBytes 11) ((t.mask .literals).dropBytes 13) := by
  refine ⟨by decide +kernel, Or.inl ⟨"SELECT u ".toList, " ".toList, [], ?_, ?_, ?_⟩⟩ <;>
    decide +kernel

end Places

end SqlInsight.Text
