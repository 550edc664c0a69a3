/-
Masks on masks. In the mask of a text everything blanked is code, and everything else stands in the
region that it stands in in the text: blanking makes no comment, no literal and no delimited
identifier out of what stands beside it. So the scan of the mask goes along with that of the text,
and a mask on a mask blanks what either of the two blanks. Masks are ordered by what they blank, and
of two of them the greater one blanks what either does.
-/
import Mathlib.Order.Lattice
import SqlInsight.Proofs.Text.Code
import SqlInsight.Proofs.Text.Lexemes

namespace SqlInsight

namespace Mask

theorem rank_injective : Function.Injective rank := by
  intro m m' h
  cases m <;> cases m' <;> first | rfl | contradiction

/-- Masks are ordered by what they blank: comments, then literals, then identifiers. -/
instance : LinearOrder Mask :=
  LinearOrder.lift' rank rank_injective

end Mask

namespace Region

/-- The region in which the mask has what the text has in the region `r`. -/
def masked (m : Mask) (r : Region) : Region :=
  if r.isMasked m then .code else r

theorem kind_eq_code {r : Region} (h : r.kind = .code) : r = .code := by
  cases r <;> simp_all [kind]

theorem isMasked_kind (m : Mask) (r : Region) : r.kind.isMasked m = r.isMasked m := by
  cases r <;> rfl

/-- The greater of two masks blanks what either blanks. -/
theorem isMasked_max (m m' : Mask) (r : Region) :
    r.isMasked (max m m') = (r.isMasked m || r.isMasked m') := by
  have himplies {k k' : Mask} (h : k ≤ k') : r.isMasked k = true → r.isMasked k' = true :=
    fun hr => isMasked_mono h hr
  rw [Bool.eq_iff_iff, Bool.or_eq_true]
  rcases le_total m m' with h | h
  · rw [max_eq_right h]
    exact ⟨Or.inr, fun hr => hr.elim (himplies h) id⟩
  · rw [max_eq_left h]
    exact ⟨Or.inl, fun hr => hr.elim id (himplies h)⟩

end Region

namespace ScanState

variable {m : Mask} {s : ScanState} {kind : Region} {c : Char} {next : Option Char}

/-- Where the scan of the mask stands while that of the text stands in `s`. -/
def masked (m : Mask) : ScanState → ScanState
  | inside r => inside (r.masked m)
  | midway r after => if r.isMasked m then start else midway r after

/-- In a region that is blanked the scan of the mask stands in code. -/
theorem Within.masked_eq_start (hs : s.Within kind) (h : kind.isMasked m = true) :
    s.masked m = start := by
  cases s with
  | inside r =>
      obtain rfl : r.kind = kind := hs
      rw [Region.isMasked_kind] at h
      rw [masked, Region.masked, if_pos h, start]
  | midway r after =>
      obtain ⟨rfl, -, -⟩ := hs
      rw [Region.isMasked_kind] at h
      rw [masked, if_pos h]

/-- In a region that is left both scans stand in the same place. -/
theorem Within.masked_eq_self (hs : s.Within kind) (h : kind.isMasked m = false) :
    s.masked m = s := by
  cases s with
  | inside r =>
      obtain rfl : r.kind = kind := hs
      rw [Region.isMasked_kind] at h
      rw [masked, Region.masked, if_neg (by simp [h])]
  | midway r after =>
      obtain ⟨rfl, -, -⟩ := hs
      rw [Region.isMasked_kind] at h
      rw [masked, if_neg (by simp [h])]

theorem Within.exists_masked (hs : s.Within kind) (m : Mask) :
    ∃ kind', (s.masked m).Within kind' := by
  cases h : kind.isMasked m with
  | true => exact ⟨.code, hs.masked_eq_start h ▸ within_start⟩
  | false => exact ⟨kind, (hs.masked_eq_self h).symm ▸ hs⟩

theorem masked_start (m : Mask) : start.masked m = start :=
  within_start.masked_eq_self rfl

/-- Before and behind a character that is blanked the scan of the mask stands in code. -/
theorem masked_of_isMasked (hs : s.Within kind) (h : (s.step c next).1.isMasked m = true) :
    s.masked m = start ∧ (s.step c next).2.masked m = start := by
  rcases step_cases hs c next with hcode | ⟨-, hbefore, hbehind⟩
  · rw [hcode] at h
    contradiction
  · rw [← Region.isMasked_kind] at h
    constructor
    · rcases hbefore with rfl | hkind
      · exact masked_start m
      · exact hs.masked_eq_start (hkind ▸ h)
    · rcases hbehind with hends | hwithin
      · rw [hends, masked_start]
      · exact hwithin.masked_eq_start h

/-- What is no code gives way to code at a line feed only. -/
theorem eq_newline_of_step (hs : s.Within kind) (hkind : kind ≠ .code)
    (h : s.step c next = (.code, start)) : c = '\n' := by
  cases s with
  | midway r after =>
      obtain ⟨-, hregion, -⟩ := hs
      exact absurd (congrArg Prod.fst h) hregion
  | inside r =>
      obtain rfl : r.kind = kind := hs
      cases r with
      | code => exact absurd rfl hkind
      | _ =>
          simp only [step, stepDelimited, stepBlock] at h
          split_ifs at h <;> simp_all

/-- A character that is left is read in the mask as in the text, if the same one follows it. -/
theorem step_masked (hs : s.Within kind) (h : (s.step c next).1.isMasked m = false) :
    (s.masked m).step c next = ((s.step c next).1, (s.step c next).2.masked m) := by
  rcases step_cases hs c next with hcode | ⟨-, hbefore, hbehind⟩
  · rw [hcode, masked_start]
    by_cases hkind : kind.isMasked m = true
    · have hne : kind ≠ .code := by
        rintro rfl
        contradiction
      rw [hs.masked_eq_start hkind, eq_newline_of_step hs hne hcode]
      exact step_newline (Or.inl rfl) next
    · rw [hs.masked_eq_self (by simpa using hkind), hcode]
  · rw [← Region.isMasked_kind] at h
    have hsame : s.masked m = s := by
      rcases hbefore with rfl | hkind
      · exact masked_start m
      · exact hs.masked_eq_self (hkind ▸ h)
    have hafter : (s.step c next).2.masked m = (s.step c next).2 := by
      rcases hbehind with hends | hwithin
      · rw [hends, masked_start]
      · exact hwithin.masked_eq_self h
    rw [hsame, hafter]

/-- What follows a character matters only to a token that goes over both. -/
theorem step_next_cases (s : ScanState) (c : Char) (next : Option Char) :
    s.step c next = s.step c none ∨
      ∃ after, (s.step c next).2 = midway (s.step c next).1 after := by
  cases s with
  | midway r after => exact Or.inl rfl
  | inside r =>
      cases r <;> simp only [step, stepCode, stepDelimited, stepBlock] <;> split_ifs <;> simp_all

/-- A blank in place of what follows a character that is left makes no difference to it. -/
theorem step_of_next_masked {d x : Char} {after : Option Char}
    (h : (s.step c (some d)).1.isMasked m = false)
    (hd : ((s.step c (some d)).2.step d after).1.isMasked m = true) (hx : isPairEnd x = false) :
    s.step c (some x) = s.step c (some d) := by
  rw [step_of_not_isPairEnd s c hx]
  rcases step_next_cases s c (some d) with hnone | ⟨behind, htoken⟩
  · exact hnone.symm
  · rw [htoken, step, h] at hd
    contradiction

end ScanState

namespace Text

open ScanState

/-- What a mask leaves of a character that stands in a region: the character, or blanks of the
code. -/
def leftBy (m : Mask) (x : Char × Region) : List (Char × Region) :=
  if x.2.isMasked m then (blanks x.1).map (·, .code) else [x]

theorem leftBy_of_isMasked {m : Mask} {x : Char × Region} (h : x.2.isMasked m = true) :
    leftBy m x = (blanks x.1).map (·, .code) :=
  if_pos h

theorem leftBy_of_not_isMasked {m : Mask} {x : Char × Region} (h : x.2.isMasked m = false) :
    leftBy m x = [x] := by
  rw [leftBy, h]
  rfl

theorem isPairEnd_of_mem_blanks {c x : Char} (h : x ∈ blanks c) : isPairEnd x = false :=
  isPairEnd_of_isBlank (isBlank_of_mem_blanks h)

theorem staysInCode_of_mem_blanks {c x : Char} (h : x ∈ blanks c) : staysInCode x = true :=
  staysInCode_of_isBlank (isBlank_of_mem_blanks h)

theorem exists_blanks_eq_cons (c : Char) : ∃ x rest, blanks c = x :: rest := by
  apply List.exists_cons_of_ne_nil
  intro hnil
  have hsize := size_blanks c
  rw [hnil, size_nil] at hsize
  exact absurd hsize.symm c.utf8Size_pos.ne'

section

variable {m : Mask} {s : ScanState} {kind : Region} {c : Char} {rest : Text}

/-- Whatever the mask leaves of what follows a character that is left, that is read alike. -/
theorem step_head?_maskOf (h : (s.step c rest.head?).1.isMasked m = false) :
    s.step c (maskOf m (regionsFrom (s.step c rest.head?).2 rest)).head? =
      s.step c rest.head? := by
  cases rest with
  | nil => rfl
  | cons d more =>
      rw [List.head?_cons] at h ⊢
      rw [regionsFrom_cons, maskOf_cons]
      split
      · rename_i hd
        obtain ⟨x, behind, hblanks⟩ := exists_blanks_eq_cons d
        have hx : isPairEnd x = false := isPairEnd_of_mem_blanks (c := d) (by simp [hblanks])
        rw [hblanks, List.cons_append, List.head?_cons]
        exact step_of_next_masked h hd hx
      · rfl

/-- A character that is left is read in the mask as in the text. -/
theorem step_maskOf (hs : s.Within kind) (h : (s.step c rest.head?).1.isMasked m = false) :
    (s.masked m).step c (maskOf m (regionsFrom (s.step c rest.head?).2 rest)).head? =
      ((s.step c rest.head?).1, (s.step c rest.head?).2.masked m) := by
  have hnext := step_head?_maskOf h
  have hstep := step_masked hs (hnext ▸ h)
  rwa [hnext] at hstep

end

/-- The scan of the mask goes along with that of the text. -/
theorem regionsFrom_maskOf (m : Mask) {s : ScanState} {kind : Region} (hs : s.Within kind)
    (t : Text) :
    regionsFrom (s.masked m) (maskOf m (regionsFrom s t)) =
        (regionsFrom s t).flatMap (leftBy m) ∧
      scanFrom (s.masked m) (maskOf m (regionsFrom s t)) = (scanFrom s t).masked m := by
  induction t generalizing s kind with
  | nil => exact ⟨rfl, rfl⟩
  | cons c rest ih =>
      obtain ⟨kind', -, hwithin⟩ := exists_within_step hs c rest.head?
      obtain ⟨hregions, hscan⟩ := ih hwithin
      rw [regionsFrom_cons, maskOf_cons, List.flatMap_cons, scanFrom]
      cases hmasked : (s.step c rest.head?).1.isMasked m with
      | true =>
          have hcode : ∀ x ∈ blanks c, staysInCode x = true := fun _ => staysInCode_of_mem_blanks
          obtain ⟨hbefore, hbehind⟩ := masked_of_isMasked hs hmasked
          rw [hbehind] at hregions hscan
          rw [if_pos rfl, hbefore, leftBy_of_isMasked hmasked, ← hregions, ← hscan]
          exact ⟨regions_append_of_staysInCode hcode _, scanFrom_append_of_staysInCode hcode _⟩
      | false =>
          rw [if_neg (by simp), leftBy_of_not_isMasked hmasked, List.singleton_append,
            regionsFrom_cons, scanFrom, step_maskOf hs hmasked, hregions, hscan]
          exact ⟨rfl, rfl⟩

/-- The regions of a mask are those of the text, with blanks of the code for what is blanked. -/
theorem regions_mask (m : Mask) (t : Text) :
    (t.mask m).regions = t.regions.flatMap (leftBy m) := by
  have h := (regionsFrom_maskOf m within_start t).1
  rwa [masked_start] at h

theorem endRegion_mask (m : Mask) (t : Text) : (t.mask m).endRegion = t.endRegion.masked m := by
  have h := (regionsFrom_maskOf m within_start t).2
  rw [masked_start, scanFrom_start t] at h
  rw [endRegion, mask_eq_maskOf, regions, h]
  rfl

theorem maskOf_blanks (m : Mask) (c : Char) : maskOf m ((blanks c).map (·, .code)) = blanks c :=
  maskOf_map_of_not_isMasked rfl _

/-- What is left by one mask and then by another is what the greater one leaves. -/
theorem maskOf_flatMap_leftBy (m m' : Mask) (regions : List (Char × Region)) :
    maskOf m' (regions.flatMap (leftBy m)) = maskOf (max m m') regions := by
  induction regions with
  | nil => rfl
  | cons x rest ih =>
      rw [List.flatMap_cons, maskOf_append, ih, maskOf_cons, Region.isMasked_max]
      cases h : x.2.isMasked m with
      | true => rw [leftBy_of_isMasked h, maskOf_blanks, Bool.true_or, if_pos rfl]
      | false => rw [leftBy_of_not_isMasked h, maskOf_singleton, Bool.false_or]

theorem mask_mask (m m' : Mask) (t : Text) : (t.mask m).mask m' = t.mask (max m m') := by
  rw [mask_eq_maskOf, regions_mask, maskOf_flatMap_leftBy, ← mask_eq_maskOf]

theorem byteRegions_append (u v : List (Char × Region)) :
    byteRegions (u ++ v) = byteRegions u ++ byteRegions v :=
  List.flatMap_append

theorem byteRegions_cons (x : Char × Region) (rest : List (Char × Region)) :
    byteRegions (x :: rest) = (String.utf8EncodeChar x.1).map (·, x.2) ++ byteRegions rest :=
  List.flatMap_cons

theorem byteRegions_map (r : Region) (t : Text) :
    byteRegions (t.map (·, r)) = (utf8 t).map (·, r) := by
  induction t with
  | nil => rfl
  | cons c rest ih => rw [List.map_cons, byteRegions_cons, ih, utf8_cons, List.map_append]

/-- The bytes of what is left of a character stand in its region, and those of blanks in code. -/
theorem byteRegions_leftBy (m : Mask) (x : Char × Region) :
    byteRegions (leftBy m x) =
      (String.utf8EncodeChar x.1).map fun b => (x.2.maskByte m b, x.2.masked m) := by
  cases h : x.2.isMasked m with
  | true =>
      have hbytes := utf8_masked m x
      rw [if_pos h] at hbytes
      rw [leftBy_of_isMasked h, byteRegions_map, hbytes, List.map_map]
      apply List.map_congr_left
      intro b _
      simp [Region.masked, h]
  | false =>
      rw [leftBy_of_not_isMasked h, byteRegions_cons]
      change _ ++ [] = _
      rw [List.append_nil]
      apply List.map_congr_left
      intro b _
      simp [Region.maskByte, Region.masked, h]

/-- Byte by byte, what a mask leaves stands in its region, and what it blanks stands in code. -/
theorem byteRegions_mask (m : Mask) (t : Text) :
    byteRegions (t.mask m).regions =
      (byteRegions t.regions).map fun x => (x.2.maskByte m x.1, x.2.masked m) := by
  rw [regions_mask]
  induction t.regions with
  | nil => rfl
  | cons x rest ih =>
      rw [List.flatMap_cons, byteRegions_append, ih, byteRegions_leftBy, byteRegions_cons,
        List.map_append, List.map_map]
      rfl

section Lexemes

def standsIn (p : Region → Bool) (lexeme : List (Char × Region)) : Bool :=
  lexeme.all fun x => p x.2

variable {p : Region → Bool}

theorem standsIn_cons (x : Char × Region) (lexeme : List (Char × Region)) :
    standsIn p (x :: lexeme) = (p x.2 && standsIn p lexeme) :=
  List.all_cons

theorem standsIn_singleton (x : Char × Region) : standsIn p [x] = p x.2 := by
  rw [standsIn_cons]
  exact Bool.and_true _

/-- Of a lexeme all stands in admitted regions if its first character does. -/
theorem SameKind.standsIn_eq (hp : ∀ r, p r.kind = p r) {x : Char × Region}
    {lexeme : List (Char × Region)} (h : SameKind (x :: lexeme)) :
    standsIn p (x :: lexeme) = p x.2 := by
  obtain ⟨kind, hkind⟩ := h
  have hall : ∀ y ∈ x :: lexeme, p y.2 = p x.2 := by
    intro y hy
    rw [← hp y.2, hkind y hy, ← hkind x List.mem_cons_self, hp]
  cases hx : p x.2 with
  | true =>
      rw [standsIn, List.all_eq_true]
      exact fun y hy => (hall y hy).trans hx
  | false => rw [standsIn_cons, hx, Bool.false_and]

/-- A character that is admitted goes to the lexeme that it belongs to, and any other one goes with
a lexeme that is left out. -/
theorem filter_lexemesFrom_cons (hp : ∀ r, p r.kind = p r) {s : ScanState} {kind : Region}
    (hs : s.Within kind) (c : Char) (rest : Text) :
    let x := (c, (s.step c rest.head?).1)
    let behind := (s.step c rest.head?).2
    let more := (lexemesFrom behind rest).filter (standsIn p)
    (lexemesFrom s (c :: rest)).filter (standsIn p) =
      if p x.2 then
        if endsLexeme x.2 behind ((regionsFrom behind rest).head?.map Prod.snd) then [x] :: more
        else attach x more
      else more := by
  intro x behind more
  rw [lexemesFrom_cons]
  split
  · rw [List.filter_cons, standsIn_singleton]
  · rename_i hgoes
    cases rest with
    | nil =>
        change [[x]].filter _ = _
        rw [List.filter_cons, standsIn_singleton]
        rfl
    | cons d rest =>
        obtain ⟨kind', -, hbehind⟩ := exists_within_step hs c (some d)
        obtain ⟨first, others, hothers⟩ := exists_lexemesFrom_cons behind d rest
        have hfirst := (sameKind_of_mem_lexemesFrom hbehind
          (hothers ▸ List.mem_cons_self)).standsIn_eq hp
        have hkind : (behind.step d rest.head?).1.kind = x.2.kind :=
          kind_eq_of_not_endsLexeme hs hgoes
        have hadmits : p (behind.step d rest.head?).1 = p x.2 := by rw [← hp, hkind, hp]
        rw [hadmits] at hfirst
        have hmore : more = (lexemesFrom behind (d :: rest)).filter (standsIn p) := rfl
        change (attach x (lexemesFrom behind (d :: rest))).filter (standsIn p) = _
        rw [hmore, hothers, attach, List.filter_cons, List.filter_cons,
          standsIn_cons x, hfirst]
        cases p x.2 <;> rfl

theorem filter_lexemesFrom_append (hp : ∀ r, p r.kind = p r) (hcode : p .code = false) {a : Text}
    (h : ∀ c ∈ a, staysInCode c = true) (b : Text) :
    (lexemesFrom start (a ++ b)).filter (standsIn p) =
      (lexemesFrom start b).filter (standsIn p) := by
  induction a with
  | nil => rfl
  | cons c rest ih =>
      have hstep := step_of_staysInCode (h c List.mem_cons_self) (rest ++ b).head?
      rw [List.cons_append, filter_lexemesFrom_cons hp within_start, hstep, hcode,
        if_neg Bool.false_ne_true]
      exact ih fun d hd => h d (List.mem_cons_of_mem c hd)

/-- A lexeme of what a mask leaves ends in the mask where it ends in the text. -/
theorem endsLexeme_masked {m : Mask} {s : ScanState} {kind : Region} (hs : s.Within kind) {c : Char}
    {rest : Text} (hne : (s.step c rest.head?).1 ≠ .code)
    (h : (s.step c rest.head?).1.isMasked m = false) :
    let r := (s.step c rest.head?).1
    let behind := (s.step c rest.head?).2
    endsLexeme r (behind.masked m)
        ((regionsFrom (behind.masked m) (maskOf m (regionsFrom behind rest))).head?.map Prod.snd) =
      endsLexeme r behind ((regionsFrom behind rest).head?.map Prod.snd) := by
  intro r behind
  rcases step_cases hs c rest.head? with hcode | ⟨-, -, hends | hwithin⟩
  · rw [hcode] at hne
    contradiction
  · have hstart : behind = start := hends
    rw [hstart, masked_start, endsLexeme, endsLexeme, if_neg hne, if_neg hne]
    simp
  · rw [← Region.isMasked_kind] at h
    rw [(regionsFrom_maskOf m hwithin rest).1, hwithin.masked_eq_self h]
    cases rest with
    | nil => rfl
    | cons d more =>
        have hplain : (behind.step d more.head?).1.isMasked m = false := by
          rcases step_cases hwithin d more.head? with hcode | ⟨-, hstart | hkind, -⟩
          · rw [hcode]
            rfl
          · rw [hstart] at hwithin
            exact absurd (Region.kind_eq_code hwithin.symm) hne
          · rw [← Region.isMasked_kind, hkind, h]
        rw [regionsFrom_cons, List.flatMap_cons, leftBy_of_not_isMasked hplain]
        rfl

/-- What the mask has apart from the code are the lexemes of the text that it leaves. -/
theorem filter_lexemesFrom_maskOf (m : Mask) {s : ScanState} {kind : Region} (hs : s.Within kind)
    (t : Text) :
    (lexemesFrom (s.masked m) (maskOf m (regionsFrom s t))).filter (standsIn (· != .code)) =
      (lexemesFrom s t).filter (standsIn fun r => r != .code && !r.isMasked m) := by
  have hkind : ∀ r : Region, (r.kind != .code) = (r != .code) := by
    intro r
    cases r <;> rfl
  have hkind' : ∀ r : Region, (r.kind != .code && !r.kind.isMasked m) =
      (r != .code && !r.isMasked m) := by
    intro r
    rw [hkind, Region.isMasked_kind]
  induction t generalizing s kind with
  | nil => rfl
  | cons c rest ih =>
      obtain ⟨kind', -, hwithin⟩ := exists_within_step hs c rest.head?
      have hmore := ih hwithin
      rw [filter_lexemesFrom_cons hkind' hs, regionsFrom_cons, maskOf_cons]
      cases hmasked : (s.step c rest.head?).1.isMasked m with
      | true =>
          have hcode : ∀ x ∈ blanks c, staysInCode x = true := fun _ => staysInCode_of_mem_blanks
          obtain ⟨hbefore, hbehind⟩ := masked_of_isMasked hs hmasked
          rw [hbehind] at hmore
          rw [if_pos rfl, hbefore, filter_lexemesFrom_append hkind rfl hcode, hmore, Bool.not_true,
            Bool.and_false, if_neg Bool.false_ne_true]
      | false =>
          obtain ⟨kind'', hs'⟩ := hs.exists_masked m
          rw [if_neg Bool.false_ne_true, List.singleton_append, filter_lexemesFrom_cons hkind hs',
            step_maskOf hs hmasked, hmore, Bool.not_false, Bool.and_true]
          cases hne : (s.step c rest.head?).1 != .code with
          | false => rfl
          | true => rw [endsLexeme_masked hs (by simpa using hne) hmasked]

/-- The literals, delimited identifiers and comments of a text, in order. -/
def enclosed (t : Text) : List (List (Char × Region)) :=
  t.lexemes.filter (standsIn (· != .code))

/-- Those of a mask are those of the text that it leaves. -/
theorem enclosed_mask (m : Mask) (t : Text) :
    (t.mask m).enclosed = t.enclosed.filter (standsIn fun r => !r.isMasked m) := by
  have hboth (lexeme : List (Char × Region)) :
      standsIn (fun r => r != .code && !r.isMasked m) lexeme =
        (standsIn (fun r => !r.isMasked m) lexeme && standsIn (· != .code) lexeme) := by
    rw [Bool.eq_iff_iff, Bool.and_eq_true]
    simp only [standsIn, List.all_eq_true, Bool.and_eq_true, forall₂_and]
    exact And.comm
  have h := filter_lexemesFrom_maskOf m within_start t
  rw [masked_start] at h
  rw [enclosed, enclosed, List.filter_filter, ← funext hboth]
  exact h

end Lexemes

/-- Masks form a lattice. Masking what is masked comes to masking with the greater mask, so doing it
twice changes nothing. Blanking makes nothing new out of what stands beside it: the literals, the
delimited identifiers and the comments of a mask are those of the text that it leaves; byte by byte,
all that is left stands in its region, and all that is blanked in code; and so does the end. -/
theorem mask_lattice (m m' : Mask) (t : Text) :
    (Mask.comments < .literals ∧ Mask.literals < .identifiers) ∧
      (t.mask m).mask m' = t.mask (max m m') ∧ (t.mask m).mask m = t.mask m ∧
      (t.mask m).enclosed = t.enclosed.filter (standsIn fun r => !r.isMasked m) ∧
      byteRegions (t.mask m).regions =
        (byteRegions t.regions).map (fun x => (x.2.maskByte m x.1, x.2.masked m)) ∧
      (t.mask m).endRegion = t.endRegion.masked m := by
  refine ⟨⟨by decide, by decide⟩, mask_mask m m' t, ?_, enclosed_mask m t, byteRegions_mask m t,
    endRegion_mask m t⟩
  rw [mask_mask, max_self]

/-- Where a literal between two hyphens is blanked, these begin no comment. -/
example : (mask .literals "1 -'2'- 3".toList).enclosed = [] := by decide +kernel

end Text

end SqlInsight
