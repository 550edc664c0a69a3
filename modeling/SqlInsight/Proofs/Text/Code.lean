/-
Texts put together, and texts without any sign that opens a literal, a delimited identifier or a
comment. The scan reads one character ahead, so behind a text that ends in code it goes on as in a
text by itself, unless a token of two characters straddles the seam. Of a text that is cut anywhere
the scan reads all characters before the cut alike but for the last one, which it takes for another
token only if that is one byte. Wherever the scan stands in code, texts without signs are code, so
masks leave them as they are. A closed delimited identifier in code leaves the scan in code, too.
Bare names are such texts; unquoting leaves them as they are, and of other names what stands between
the delimiters.
-/
import SqlInsight.Proofs.References.Written
import SqlInsight.Proofs.Text.MaskedBytes

namespace SqlInsight

/-- Whether a character and its region, at the end of a text, and the character that follows can be
one token: two that open a comment, or a doubled character that closes a delimited region. -/
def Straddles (x : Char × Region) (d : Char) : Prop :=
  x = ('-', .code) ∧ d = '-' ∨ x = ('/', .code) ∧ d = '*' ∨ x.2.closer? = some x.1 ∧ x.1 = d

instance (x : Char × Region) (d : Char) : Decidable (Straddles x d) :=
  inferInstanceAs (Decidable (_ ∨ _ ∨ _))

namespace ScanState

/-- What ends in code is read alike before a character with which it makes no token. -/
theorem step_of_not_straddles {s : ScanState} {c d : Char} (hcode : (s.step c none).2 = start)
    (h : ¬Straddles (c, (s.step c none).1) d) : s.step c (some d) = s.step c none := by
  cases s with
  | midway region after => rfl
  | inside region =>
      cases region <;>
        simp only [Straddles, Region.closer?, start, step, stepCode, stepDelimited, stepBlock]
          at hcode h ⊢ <;>
        split_ifs at hcode h ⊢ <;> simp_all

/-- What follows a character matters to its region only if it is an ASCII character. -/
theorem step_fst_cases (s : ScanState) (c : Char) (next : Option Char) :
    (s.step c next).1 = (s.step c none).1 ∨ c.utf8Size = 1 := by
  by_cases hc : c.utf8Size = 1
  · exact Or.inr hc
  · left
    cases s with
    | midway region after => rfl
    | inside region =>
        rw [Text.step_of_utf8Size_ne region hc, Text.step_of_utf8Size_ne region hc]

end ScanState

namespace Text

open ScanState

/-- Whether the last character of a text and the first one of another can be one token. -/
def Straddled (a b : Text) : Prop :=
  ∃ x ∈ a.regions.getLast?, ∃ d ∈ b.head?, Straddles x d

instance (a b : Text) : Decidable (Straddled a b) :=
  have (x : Char × Region) : Decidable (∃ d ∈ b.head?, Straddles x d) :=
    Option.decidableExistsMem b.head?
  Option.decidableExistsMem a.regions.getLast?

/-- Behind a text that ends in code the scan starts afresh, unless a token straddles the seam. -/
theorem regionsFrom_append_of_not_straddles {s : ScanState} {a b : Text}
    (hcode : scanFrom s a = start)
    (h : ∀ x ∈ (regionsFrom s a).getLast?, ∀ d ∈ b.head?, ¬Straddles x d) :
    regionsFrom s (a ++ b) = regionsFrom s a ++ b.regions ∧
      scanFrom s (a ++ b) = scanFrom start b := by
  induction a generalizing s with
  | nil =>
      obtain rfl : s = start := hcode
      exact ⟨rfl, rfl⟩
  | cons c rest ih =>
      have hstep : s.step c (rest ++ b).head? = s.step c rest.head? := by
        cases rest with
        | cons d more => rfl
        | nil =>
            cases b with
            | nil => rfl
            | cons d more => exact step_of_not_straddles hcode (h _ rfl d rfl)
      have hrest : ∀ x ∈ (regionsFrom (s.step c rest.head?).2 rest).getLast?,
          ∀ d ∈ b.head?, ¬Straddles x d := by
        intro x hx
        apply h x
        rw [regionsFrom_cons, List.getLast?_cons, Option.mem_def.mp hx]
        rfl
      obtain ⟨hregions, hscan⟩ := ih hcode hrest
      rw [List.cons_append, regionsFrom_cons, scanFrom, hstep, hregions, hscan, regionsFrom_cons]
      exact ⟨rfl, rfl⟩

/-- The characters before a cut are read alike by themselves and in the text, but for the last one
of them if it is an ASCII character. -/
theorem exists_regionsFrom_append (s : ScanState) (a : Text) (c : Char) (rest : Text) :
    ∃ u r r' v, regionsFrom s (a ++ [c]) = u ++ [(c, r)] ∧
      regionsFrom s (a ++ c :: rest) = u ++ (c, r') :: v ∧ u.map Prod.fst = a ∧
      (r' = r ∨ c.utf8Size = 1) := by
  induction a generalizing s with
  | nil => exact ⟨[], _, _, _, rfl, rfl, rfl, step_fst_cases s c rest.head?⟩
  | cons d more ih =>
      have hhead : (more ++ c :: rest).head? = (more ++ [c]).head? := by cases more <;> rfl
      obtain ⟨u, r, r', v, hown, hwhole, hfst, hcases⟩ := ih (s.step d (more ++ [c]).head?).2
      refine ⟨(d, (s.step d (more ++ [c]).head?).1) :: u, r, r', v, ?_, ?_, ?_, hcases⟩
      · rw [List.cons_append, regionsFrom_cons, hown, List.cons_append]
      · rw [List.cons_append, regionsFrom_cons, hhead, hwhole, List.cons_append]
      · rw [List.map_cons, hfst]

theorem mask_append_of_not_straddled {a b : Text} (hcode : a.endRegion = .code)
    (h : ¬Straddled a b) :
    (∀ m, (a ++ b).mask m = a.mask m ++ b.mask m) ∧ (a ++ b).endRegion = b.endRegion := by
  have hstart : scanFrom start a = start := by rw [scanFrom_start, hcode, start]
  obtain ⟨hregions, hscan⟩ := regionsFrom_append_of_not_straddles (b := b) hstart
    fun x hx d hd hpair => h ⟨x, hx, d, hd, hpair⟩
  refine ⟨fun m => ?_, ?_⟩
  · rw [mask_eq_maskOf, regions, hregions, maskOf_append]
    rfl
  · rw [endRegion, hscan, endRegion]

/-- A text is masked as in any text that goes on from it, up to its last byte. -/
theorem getElem?_utf8_mask_append (m : Mask) {t : Text} (rest : Text) {n : Nat}
    (hn : n + 1 < size t) : (utf8 (t.mask m))[n]? = (utf8 ((t ++ rest).mask m))[n]? := by
  obtain ⟨a, c, rfl⟩ : ∃ a c, t = a ++ [c] := by
    rcases List.eq_nil_or_concat t with rfl | ⟨a, c, hconcat⟩
    · rw [size_nil] at hn
      omega
    · exact ⟨a, c, by rw [hconcat, List.concat_eq_append]⟩
  obtain ⟨u, r, r', v, hown, hwhole, hfst, hcases⟩ := exists_regionsFrom_append start a c rest
  rw [List.append_assoc, List.singleton_append, mask_eq_maskOf, mask_eq_maskOf]
  rcases hcases with rfl | hascii
  · have hgoes : regions (a ++ c :: rest) = regions (a ++ [c]) ++ v := by
      rw [regions, regions, hown, hwhole, List.append_assoc, List.singleton_append]
    rw [hgoes, maskOf_append, utf8_append, List.getElem?_append_left]
    rw [length_utf8, size_maskOf, map_fst_regions]
    omega
  · have hlt : n < (utf8 (maskOf m u)).length := by
      rw [length_utf8, size_maskOf, hfst]
      rw [size_append, size_cons, size_nil, hascii] at hn
      omega
    rw [regions, regions, hown, hwhole, maskOf_append, maskOf_append, utf8_append, utf8_append,
      List.getElem?_append_left hlt, List.getElem?_append_left hlt]

/-- Masking is compositional. Behind a text that ends in code another one is masked as by itself,
and it ends where that one does, unless a token straddles the seam; and any text is masked as in a
text that goes on from it, up to its last byte. -/
theorem mask_compositional (m : Mask) :
    (∀ a b : Text, a.endRegion = .code → ¬Straddled a b →
      (a ++ b).mask m = a.mask m ++ b.mask m ∧ (a ++ b).endRegion = b.endRegion) ∧
      ∀ (t rest : Text) (n : Nat), n + 1 < size t →
        (utf8 (t.mask m))[n]? = (utf8 ((t ++ rest).mask m))[n]? := by
  refine ⟨fun a b hcode h => ?_, fun t rest n => getElem?_utf8_mask_append m rest⟩
  obtain ⟨hmask, hend⟩ := mask_append_of_not_straddled hcode h
  exact ⟨hmask m, hend⟩

/-- A seam between a slash that opens no comment and a literal, which is not closed. -/
theorem mask_compositional_slash :
    endRegion "SELECT [a]]'] -- b\n/".toList = .code ∧
      ¬Straddled "SELECT [a]]'] -- b\n/".toList "'c''*".toList ∧
      mask .literals "SELECT [a]]'] -- b\n/'c''*".toList =
        "SELECT [a]]']     \n/".toList ++ "     ".toList ∧
      endRegion "SELECT [a]]'] -- b\n/'c''*".toList = .singleQuoted := by
  have hcode : endRegion "SELECT [a]]'] -- b\n/".toList = .code := by decide +kernel
  have hseam : ¬Straddled "SELECT [a]]'] -- b\n/".toList "'c''*".toList := by decide +kernel
  obtain ⟨hmask, hend⟩ := (mask_compositional .literals).1 _ _ hcode hseam
  refine ⟨hcode, hseam, ?_, ?_⟩
  · exact hmask.trans (by decide +kernel)
  · exact hend.trans (by decide +kernel)

end Text

open ScanState

/-- Whether something holds of the characters of a text is decided along the text, and not along
all the characters that there are. -/
instance (priority := 2000) Text.decidableForallMem {p : Char → Prop} [DecidablePred p]
    (t : Text) : Decidable (∀ c ∈ t, p c) :=
  List.decidableBAll p t

instance (priority := 2000) Option.decidableForallMemChar {p : Char → Prop} [DecidablePred p]
    (o : Option Char) : Decidable (∀ c ∈ o, p c) :=
  Option.decidableForallMem o

theorem isBlank_of_isName {c : Char} (h : CharClass.isName c = true) :
    CharClass.isBlank c = false :=
  (References.isOrdinary_of_codes (by decide +kernel) h).blank

theorem isName_of_isBlank {c : Char} (h : CharClass.isBlank c = true) :
    CharClass.isName c = false := by
  rw [Bool.eq_false_iff]
  intro hname
  rw [isBlank_of_isName hname] at h
  contradiction

theorem isBlank_of_isWord {c : Char} (h : CharClass.isWord c = true) :
    CharClass.isBlank c = false :=
  (References.isOrdinary_of_codes (by decide +kernel) h).blank

theorem isWord_of_isBlank {c : Char} (h : CharClass.isBlank c = true) :
    CharClass.isWord c = false := by
  rw [Bool.eq_false_iff]
  intro hword
  rw [isBlank_of_isWord hword] at h
  contradiction

/-- Whether a character leaves the scan in code whatever follows it. -/
def staysInCode (c : Char) : Bool :=
  !"'\"[-/".toList.contains c

theorem staysInCode_iff (c : Char) : staysInCode c = true ↔
    c ≠ '\'' ∧ c ≠ '"' ∧ c ≠ '[' ∧ c ≠ '-' ∧ c ≠ '/' := by
  simp [staysInCode]

/-- Names hold no sign that opens a region or is part of a token of two characters. -/
theorem staysInCode_of_isName {c : Char} (h : CharClass.isName c = true) :
    staysInCode c = true ∧ isPairEnd c = false := by
  have hne {d : Char} (hd : CharClass.isName d = false) : c ≠ d := by
    rintro rfl
    rw [hd] at h
    contradiction
  constructor
  · rw [staysInCode_iff]
    refine ⟨?_, ?_, ?_, ?_, ?_⟩ <;> exact hne (by decide)
  · rw [Bool.eq_false_iff]
    intro hpair
    rcases (isPairEnd_iff c).mp hpair with hc | hc | hc | hc | hc | hc <;>
      exact hne (by decide) hc

theorem staysInCode_of_isBlank {c : Char} (h : CharClass.isBlank c = true) :
    staysInCode c = true := by
  rw [staysInCode_iff]
  refine ⟨?_, ?_, ?_, ?_, ?_⟩ <;> rintro rfl <;> exact absurd h (by decide)

theorem ScanState.step_of_staysInCode {c : Char} (h : staysInCode c = true) (next : Option Char) :
    start.step c next = (.code, start) := by
  obtain ⟨h₁, h₂, h₃, h₄, h₅⟩ := (staysInCode_iff c).mp h
  simp [start, step, stepCode, h₁, h₂, h₃, h₄, h₅]

namespace Text

variable {a b : Text}

/-- In front of a text they belong to the code, and the scan starts afresh behind them. -/
theorem regions_append_of_staysInCode (h : ∀ c ∈ a, staysInCode c = true) (b : Text) :
    (a ++ b).regions = a.map (·, .code) ++ b.regions := by
  induction a with
  | nil => rfl
  | cons c rest ih =>
      rw [List.cons_append, regions, regionsFrom_cons, step_of_staysInCode (h c List.mem_cons_self),
        ← regions, ih fun d hd => h d (List.mem_cons_of_mem c hd)]
      rfl

theorem scanFrom_append_of_staysInCode (h : ∀ c ∈ a, staysInCode c = true) (b : Text) :
    scanFrom start (a ++ b) = scanFrom start b := by
  induction a with
  | nil => rfl
  | cons c rest ih =>
      rw [List.cons_append, scanFrom, step_of_staysInCode (h c List.mem_cons_self)]
      exact ih fun d hd => h d (List.mem_cons_of_mem c hd)

theorem endRegion_of_staysInCode (h : ∀ c ∈ a, staysInCode c = true) : a.endRegion = .code := by
  have hscan := scanFrom_append_of_staysInCode h []
  rw [List.append_nil] at hscan
  rw [endRegion, hscan]
  rfl

theorem maskOf_map_of_not_isMasked {m : Mask} {r : Region} (h : r.isMasked m = false) (a : Text) :
    maskOf m (a.map (·, r)) = a := by
  induction a with
  | nil => rfl
  | cons c rest ih =>
      rw [List.map_cons, maskOf, List.flatMap_cons, ← maskOf, ih]
      simp [h]

theorem mask_append_of_staysInCode (m : Mask) (h : ∀ c ∈ a, staysInCode c = true) (b : Text) :
    (a ++ b).mask m = a ++ b.mask m := by
  rw [mask_eq_maskOf, regions_append_of_staysInCode h, maskOf_append,
    maskOf_map_of_not_isMasked rfl, ← mask_eq_maskOf]

theorem mask_of_staysInCode (m : Mask) (h : ∀ c ∈ a, staysInCode c = true) : a.mask m = a := by
  have happend := mask_append_of_staysInCode m h []
  rwa [List.append_nil, show mask m [] = [] from rfl, List.append_nil] at happend

theorem not_straddled_of_head? (h : ∀ c, b.head? = some c → isPairEnd c = false) :
    ¬Straddled a b := by
  rintro ⟨⟨c, r⟩, -, d, hd, hpair⟩
  have hend := h d hd
  rw [Bool.eq_false_iff, ne_eq, isPairEnd_iff] at hend
  rcases hpair with ⟨-, rfl⟩ | ⟨-, rfl⟩ | ⟨hcloser, rfl⟩
  · simp at hend
  · simp at hend
  · cases r <;> simp only [Region.closer?, Option.some.injEq, reduceCtorEq] at hcloser <;>
      simp [← hcloser] at hend

/-- Behind a text that ends in code they are code. -/
theorem mask_append_code (hcode : a.endRegion = .code) (h : ∀ c ∈ b, staysInCode c = true)
    (hhead : ∀ c, b.head? = some c → isPairEnd c = false) (m : Mask) :
    (a ++ b).mask m = a.mask m ++ b ∧ (a ++ b).endRegion = .code := by
  obtain ⟨hmask, hend⟩ :=
    mask_append_of_not_straddled hcode (not_straddled_of_head? (a := a) hhead)
  exact ⟨by rw [hmask, mask_of_staysInCode m h], hend.trans (endRegion_of_staysInCode h)⟩

/-- The signs that open and close an identifier, and the region of the scan between them. -/
inductive Delimits : Char → Char → Region → Prop where
  | brackets : Delimits '[' ']' .bracketed
  | quotes : Delimits '"' '"' .doubleQuoted

section Delimited

variable {opening closing : Char} {r : Region} {inner : Text} (h : Delimits opening closing r)
  (hinner : closing ∉ inner) (hnext : b.head? ≠ some closing)

include h

theorem Delimits.step_opening (next : Option Char) :
    start.step opening next = (r, .inside r) := by
  cases h <;> simp [start, step, stepCode]

theorem Delimits.step_plain {c : Char} (hc : c ≠ closing) (next : Option Char) :
    (ScanState.inside r).step c next = (r, .inside r) := by
  cases h <;> simp [step, stepDelimited, hc]

theorem Delimits.step_closing {next : Option Char} (hnext : next ≠ some closing) :
    (ScanState.inside r).step closing next = (r, start) := by
  cases h <;> simp [step, stepDelimited, hnext, start]

theorem Delimits.isMasked {m : Mask} (hm : m ≠ .identifiers) : r.isMasked m = false := by
  cases h <;> simp [Region.isMasked, hm]

include hinner hnext

/-- A closed identifier in code lies in its region, and the scan starts afresh behind it. -/
theorem regions_delimited : regions (opening :: (inner ++ closing :: b)) =
    (opening :: (inner ++ [closing])).map (·, r) ++ b.regions := by
  have hinside : regionsFrom (.inside r) (inner ++ closing :: b) =
      (inner ++ [closing]).map (·, r) ++ b.regions := by
    induction inner with
    | nil =>
        rw [List.nil_append, regionsFrom_cons, h.step_closing hnext]
        rfl
    | cons c rest ih =>
        have hc : c ≠ closing := fun heq => hinner (heq ▸ List.mem_cons_self)
        rw [List.cons_append, regionsFrom_cons, h.step_plain hc,
          ih fun hmem => hinner (List.mem_cons_of_mem c hmem)]
        rfl
  rw [regions, regionsFrom_cons, h.step_opening, hinside]
  rfl

theorem endRegion_delimited :
    endRegion (opening :: (inner ++ closing :: b)) = b.endRegion := by
  have hinside : scanFrom (.inside r) (inner ++ closing :: b) = scanFrom start b := by
    induction inner with
    | nil => rw [List.nil_append, scanFrom, h.step_closing hnext]
    | cons c rest ih =>
        have hc : c ≠ closing := fun heq => hinner (heq ▸ List.mem_cons_self)
        rw [List.cons_append, scanFrom, h.step_plain hc]
        exact ih fun hmem => hinner (List.mem_cons_of_mem c hmem)
  rw [endRegion, scanFrom, h.step_opening, hinside, endRegion]

/-- Only the mask for identifiers changes anything in them. -/
theorem mask_delimited {m : Mask} (hm : m ≠ .identifiers) :
    mask m (opening :: (inner ++ closing :: b)) = opening :: (inner ++ closing :: b.mask m) := by
  rw [mask_eq_maskOf, regions_delimited h hinner hnext, maskOf_append,
    maskOf_map_of_not_isMasked (h.isMasked hm), ← mask_eq_maskOf]
  simp

end Delimited

end Text

namespace Name

open Text

/-- A text of characters that are neither blanks nor delimiters is a name by itself. -/
theorem unquote_of_forall {p : Char → Bool} {t : Text} (hopening : ∀ d ∈ delimiters, p d.1 = false)
    (hblank : ∀ c, p c = true → CharClass.isBlank c = false) (h : ∀ c ∈ t, p c = true) :
    unquote t = t := by
  have htrim : t.trim = t := by
    apply trim_eq_self
    · intro c hc
      exact hblank c (h c (List.mem_of_head? hc))
    · intro c hc
      exact hblank c (h c (List.mem_of_getLast? hc))
  have hinside : ∀ d ∈ delimiters, inside? d.1 d.2 t = none := by
    intro d hd
    cases t with
    | nil => rfl
    | cons c rest =>
        apply if_neg
        rintro ⟨rfl, -⟩
        have hfirst := h d.1 List.mem_cons_self
        rw [hopening d hd] at hfirst
        contradiction
  have hnone : (delimiters.findSome? fun d => (inside? d.1 d.2 t).map (undouble d.2)) = none := by
    rw [List.findSome?_eq_none_iff]
    intro d hd
    rw [hinside d hd, Option.map_none]
  rw [unquote, htrim]
  exact congrArg (Option.getD · t) hnone

theorem unquote_of_isName {t : Text} (h : ∀ c ∈ t, CharClass.isName c = true) :
    unquote t = t :=
  unquote_of_forall (by decide) (fun _ => isBlank_of_isName) h

theorem undouble_of_not_mem {c : Char} {t : Text} (h : c ∉ t) : undouble c t = t := by
  induction t using undouble.induct c with
  | case1 => rfl
  | case2 a => rfl
  | case3 a b rest hab ih => exact absurd (hab.1 ▸ List.mem_cons_self) h
  | case4 a b rest hab ih =>
      rw [undouble, if_neg hab, ih fun hmem => h (List.mem_cons_of_mem a hmem)]

theorem inside?_delimited (o c opening closing : Char) (inner : Text) :
    inside? o c (opening :: inner ++ [closing]) =
      if opening = o ∧ closing = c then some inner else none := by
  simp only [List.cons_append, inside?, List.getLast?_concat, Option.some.injEq,
    List.dropLast_concat]

/-- Of a delimited text the delimiters are taken off, and what is doubled between them is not any
more. -/
theorem unquote_delimited {opening closing : Char} (h : (opening, closing) ∈ delimiters)
    (inner : Text) : unquote (opening :: inner ++ [closing]) = undouble closing inner := by
  have hblank : ∀ d ∈ delimiters,
      CharClass.isBlank d.1 = false ∧ CharClass.isBlank d.2 = false := by decide
  have htrim : trim (opening :: inner ++ [closing]) = opening :: inner ++ [closing] := by
    apply trim_eq_self
    · intro c hc
      obtain rfl : opening = c := Option.some.inj hc
      exact (hblank _ h).1
    · intro c hc
      rw [List.getLast?_concat] at hc
      obtain rfl := Option.some.inj hc
      exact (hblank _ h).2
  simp only [unquote, htrim, delimiters, List.findSome?_cons, inside?_delimited]
  simp only [delimiters, List.mem_cons, Prod.mk.injEq, List.not_mem_nil, or_false] at h
  rcases h with ⟨rfl, rfl⟩ | ⟨rfl, rfl⟩ | ⟨rfl, rfl⟩ <;> rfl

/-- Of a name in brackets what stands between them is left. -/
theorem unquote_bracket {inner : Text} (h : ']' ∉ inner) :
    unquote (Text.bracket inner) = inner := by
  have hbrackets : ('[', ']') ∈ delimiters := by decide
  exact (unquote_delimited hbrackets inner).trans (undouble_of_not_mem h)

end Name

end SqlInsight
