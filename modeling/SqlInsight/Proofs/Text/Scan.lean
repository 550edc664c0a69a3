/-
The scan of a text taken apart. A scan reads one character ahead, so a text may be cut before a
character that ends no two-character token, and the scan of the second part goes on where that of
the first part stands. Cutting at a semicolon of the code, or after a line feed that the scan meets
outside delimited regions, it starts afresh.
-/
import SqlInsight.Proofs.Text.Bytes
import SqlInsight.Text.Region

namespace SqlInsight

/-- Whether a character may be the second one of a two-character token. -/
def isPairEnd (c : Char) : Bool :=
  "-*/'\"]".toList.contains c

theorem isPairEnd_iff (c : Char) : isPairEnd c = true ↔
    c = '-' ∨ c = '*' ∨ c = '/' ∨ c = '\'' ∨ c = '"' ∨ c = ']' := by
  simp [isPairEnd]

namespace ScanState

/-- Whether a state may follow a character: no two-character token belongs to the code. -/
def Proper : ScanState → Prop
  | inside _ => True
  | midway region _ => region ≠ .code

theorem step_of_not_isPairEnd (s : ScanState) (c : Char) {x : Char}
    (hx : isPairEnd x = false) : s.step c (some x) = s.step c none := by
  have hne : x ≠ '-' ∧ x ≠ '*' ∧ x ≠ '/' ∧ x ≠ '\'' ∧ x ≠ '"' ∧ x ≠ ']' := by
    simpa [isPairEnd_iff] using Bool.eq_false_iff.mp hx
  obtain ⟨h1, h2, h3, h4, h5, h6⟩ := hne
  cases s with
  | midway region next => rfl
  | inside region =>
      cases region <;>
        simp [step, stepCode, stepDelimited, stepBlock, h1, h2, h3, h4, h5, h6]

theorem step_proper (s : ScanState) (c : Char) (next : Option Char) :
    (s.step c next).2.Proper := by
  cases s with
  | midway region after => exact trivial
  | inside region =>
      cases region <;>
        simp only [step, stepCode, stepDelimited, stepBlock] <;> split_ifs <;> simp [Proper]

theorem step_none_inside (s : ScanState) (c : Char) :
    ∃ region, (s.step c none).2 = inside region := by
  cases s with
  | midway region after => exact ⟨after, rfl⟩
  | inside region =>
      cases region <;>
        simp only [step, stepCode, stepDelimited, stepBlock] <;> split_ifs <;> simp_all

/-- A semicolon of the code starts the scan afresh. -/
theorem step_semicolon {s : ScanState} (hs : s.Proper) {next : Option Char}
    (hcode : (s.step ';' next).1 = .code) : (s.step ';' next).2 = start := by
  cases s with
  | midway region after => exact absurd hcode hs
  | inside region =>
      cases region <;> simp_all [step, stepCode, stepDelimited, stepBlock, start]

/-- A line feed after code or a line comment belongs to the code and starts the scan afresh. -/
theorem step_newline {region : Region} (h : region = .code ∨ region = .lineComment)
    (next : Option Char) : (inside region).step '\n' next = (.code, start) := by
  rcases h with rfl | rfl <;> simp [step, stepCode, start]

theorem step_newline_next (s : ScanState) (next : Option Char) :
    s.step '\n' next = s.step '\n' none := by
  cases s with
  | midway region after => rfl
  | inside region => cases region <;> simp [step, stepCode, stepDelimited, stepBlock]

theorem step_lineBreak {region : Region} (hregion : region ≠ .lineComment) {c : Char}
    (hc : c = '\n' ∨ c = '\r') (next : Option Char) :
    ((inside region).step c next).2 = inside region := by
  rcases hc with rfl | rfl <;> cases region <;>
    simp_all [step, stepCode, stepDelimited, stepBlock]

theorem step_start_semicolon (next : Option Char) : start.step ';' next = (.code, start) := by
  simp [start, step, stepCode]

end ScanState

namespace Text

open ScanState

variable {a b : Text}

/-- A character is read the same way when the text after it goes on behind its end. -/
theorem step_head?_append (s : ScanState) (c : Char)
    (h : ∀ x, b.head? = some x → isPairEnd x = false) :
    s.step c (a ++ b).head? = s.step c a.head? := by
  cases a with
  | cons d more => rfl
  | nil =>
      cases b with
      | nil => rfl
      | cons x more => exact step_of_not_isPairEnd s c (h x rfl)

theorem regionsFrom_append (s : ScanState) (h : ∀ x, b.head? = some x → isPairEnd x = false) :
    regionsFrom s (a ++ b) = regionsFrom s a ++ regionsFrom (scanFrom s a) b := by
  induction a generalizing s with
  | nil => rfl
  | cons c rest ih =>
      simp only [List.cons_append, regionsFrom, scanFrom, step_head?_append s c h]
      rw [ih]

theorem regionsFrom_cons (s : ScanState) (c : Char) (rest : Text) :
    regionsFrom s (c :: rest) =
      (c, (s.step c rest.head?).1) :: regionsFrom (s.step c rest.head?).2 rest := rfl

theorem map_fst_regionsFrom (s : ScanState) (t : Text) :
    (regionsFrom s t).map Prod.fst = t := by
  induction t generalizing s with
  | nil => rfl
  | cons c rest ih => simp only [regionsFrom, List.map_cons, ih]

theorem length_regionsFrom (s : ScanState) (t : Text) :
    (regionsFrom s t).length = t.length := by
  rw [← List.length_map Prod.fst, map_fst_regionsFrom]

@[simp] theorem map_fst_regions (t : Text) : t.regions.map Prod.fst = t :=
  map_fst_regionsFrom start t

@[simp] theorem length_regions (t : Text) : t.regions.length = t.length :=
  length_regionsFrom start t

/-- The regions of a text begin with those of any part before a character that ends no pair. -/
theorem regions_append (h : ∀ x, b.head? = some x → isPairEnd x = false) :
    (a ++ b).regions = a.regions ++ regionsFrom (scanFrom start a) b :=
  regionsFrom_append start h

/-- The scan of a text ends between two tokens. -/
theorem scanFrom_inside (s : ScanState) (t : Text) (h : t ≠ [] ∨ ∃ region, s = inside region) :
    ∃ last, scanFrom s t = inside last := by
  induction t generalizing s with
  | nil =>
      obtain ⟨region, rfl⟩ := h.resolve_left (by simp)
      exact ⟨region, rfl⟩
  | cons c rest ih =>
      apply ih
      cases rest with
      | nil => exact Or.inr (step_none_inside s c)
      | cons d more => exact Or.inl (by simp)

theorem scanFrom_start (t : Text) : scanFrom start t = inside t.endRegion := by
  obtain ⟨last, hlast⟩ := scanFrom_inside start t (Or.inr ⟨.code, rfl⟩)
  rw [endRegion, hlast, ScanState.region]

theorem scanFrom_append (s : ScanState) (h : ∀ x, b.head? = some x → isPairEnd x = false) :
    scanFrom s (a ++ b) = scanFrom (scanFrom s a) b := by
  induction a generalizing s with
  | nil => rfl
  | cons c rest ih =>
      rw [List.cons_append, scanFrom, scanFrom, step_head?_append s c h]
      exact ih _

theorem regionsFrom_append_singleton (s : ScanState) (a : Text) {c : Char}
    (hc : isPairEnd c = false) : regionsFrom s (a ++ [c]) =
      regionsFrom s a ++ [(c, ((scanFrom s a).step c none).1)] :=
  regionsFrom_append s (by simp [hc])

theorem scanFrom_append_singleton (s : ScanState) (a : Text) {c : Char}
    (hc : isPairEnd c = false) : scanFrom s (a ++ [c]) = ((scanFrom s a).step c none).2 :=
  scanFrom_append s (by simp [hc])

/-- Whether a text is empty or ends with a line feed, so that a line begins behind it. -/
def IsLineStart (a : Text) : Prop :=
  a = [] ∨ ∃ head, a = head ++ ['\n']

theorem regionsFrom_append_of_isLineStart (s : ScanState) (h : a.IsLineStart) (b : Text) :
    regionsFrom s (a ++ b) = regionsFrom s a ++ regionsFrom (scanFrom s a) b := by
  rcases h with rfl | ⟨head, rfl⟩
  · rfl
  · rw [regionsFrom_append_singleton s head rfl, scanFrom_append_singleton s head rfl,
      List.append_assoc, List.singleton_append, regionsFrom_append s (by simp [isPairEnd]),
      regionsFrom_cons, step_newline_next]
    simp

theorem scanFrom_append_of_isLineStart (s : ScanState) (h : a.IsLineStart) (b : Text) :
    scanFrom s (a ++ b) = scanFrom (scanFrom s a) b := by
  rcases h with rfl | ⟨head, rfl⟩
  · rfl
  · rw [scanFrom_append_singleton s head rfl, List.append_assoc, List.singleton_append,
      scanFrom_append s (by simp [isPairEnd]), scanFrom, step_newline_next]

theorem scanFrom_lineBreaks {region : Region} (hregion : region ≠ .lineComment) {breaks : Text}
    (h : ∀ c ∈ breaks, c = '\n' ∨ c = '\r') :
    scanFrom (inside region) breaks = inside region := by
  induction breaks with
  | nil => rfl
  | cons c rest ih =>
      rw [scanFrom, step_lineBreak hregion (h c List.mem_cons_self)]
      exact ih fun d hd => h d (List.mem_cons_of_mem c hd)

section

variable {c : Char} (hc : isPairEnd c = false)
  (hstep : ∀ next, (inside a.endRegion).step c next = (.code, start))

include hc hstep

/-- Behind a character of the code that starts the scan afresh the regions are those of the rest by
itself. -/
theorem regions_append_cons : (a ++ c :: b).regions = a.regions ++ (c, .code) :: b.regions := by
  rw [regions_append (by simp [hc]), scanFrom_start, regionsFrom, hstep]
  rfl

theorem endRegion_append_cons : (a ++ c :: b).endRegion = b.endRegion := by
  rw [endRegion, scanFrom_append start (by simp [hc]), scanFrom_start, scanFrom, hstep]
  rfl

end

/-- After a line feed that ends code or a line comment the scan starts afresh. -/
theorem regions_append_newline (h : a.endRegion = .code ∨ a.endRegion = .lineComment) :
    (a ++ '\n' :: b).regions = a.regions ++ ('\n', .code) :: b.regions :=
  regions_append_cons rfl (step_newline h)

theorem endRegion_append_newline (h : a.endRegion = .code ∨ a.endRegion = .lineComment) :
    (a ++ '\n' :: b).endRegion = b.endRegion :=
  endRegion_append_cons rfl (step_newline h)

theorem regions_append_semicolon (h : a.endRegion = .code) :
    (a ++ ';' :: b).regions = a.regions ++ (';', .code) :: b.regions := by
  apply regions_append_cons rfl
  rw [h]
  exact step_start_semicolon

theorem endRegion_append_semicolon (h : a.endRegion = .code) :
    (a ++ ';' :: b).endRegion = b.endRegion := by
  apply endRegion_append_cons rfl
  rw [h]
  exact step_start_semicolon

/-- Blanks and semicolons in front of a text belong to the code, and the scan starts afresh behind
them. -/
theorem regions_append_of_blank_or_semicolon
    (h : ∀ c ∈ a, CharClass.isBlank c = true ∨ c = ';') (b : Text) :
    (a ++ b).regions = a.map (·, .code) ++ b.regions := by
  induction a with
  | nil => rfl
  | cons c rest ih =>
      have hne : c ≠ '\'' ∧ c ≠ '"' ∧ c ≠ '[' ∧ c ≠ '-' ∧ c ≠ '/' := by
        refine ⟨?_, ?_, ?_, ?_, ?_⟩ <;> rintro rfl <;>
          exact absurd (h _ List.mem_cons_self) (by decide)
      have hstep : start.step c (rest ++ b).head? = (.code, start) := by
        simp [start, step, stepCode, hne]
      rw [List.cons_append, regions, regionsFrom_cons, hstep, ← regions,
        ih fun d hd => h d (List.mem_cons_of_mem c hd)]
      rfl

theorem regions_of_blank_or_semicolon (h : ∀ c ∈ a, CharClass.isBlank c = true ∨ c = ';') :
    a.regions = a.map (·, .code) := by
  have happend := regions_append_of_blank_or_semicolon h []
  rw [List.append_nil] at happend
  exact happend.trans (List.append_nil _)

theorem isPairEnd_of_isBlank {c : Char} (h : CharClass.isBlank c = true) : isPairEnd c = false := by
  rw [Bool.eq_false_iff]
  intro hpair
  rcases (isPairEnd_iff c).mp hpair with rfl | rfl | rfl | rfl | rfl | rfl <;>
    exact absurd h (by decide)

/-- A text with blanks around it is scanned as by itself. -/
theorem exists_regions_of_blank_around (body : Text) {lead tail : Text}
    (hlead : lead.isBlank = true) (htail : tail.isBlank = true) :
    ∃ w, (lead ++ body ++ tail).regions = lead.map (·, .code) ++ body.regions ++ w ∧
      w.map Prod.fst = tail := by
  rw [isBlank, List.all_eq_true] at hlead htail
  refine ⟨regionsFrom (scanFrom start body) tail, ?_, map_fst_regionsFrom _ _⟩
  rw [List.append_assoc, regions_append_of_blank_or_semicolon fun c hc => Or.inl (hlead c hc),
    regions_append, List.append_assoc]
  intro x hx
  exact isPairEnd_of_isBlank (htail x (List.mem_of_head? hx))

/-- A mask changes no character but to blanks. -/
theorem isBlank_of_mem_blanks {c x : Char} (h : x ∈ blanks c) : CharClass.isBlank x = true := by
  unfold blanks at h
  split at h
  · obtain rfl := List.mem_singleton.mp h
    decide
  · obtain rfl := List.eq_of_mem_replicate h
    decide

theorem count_newline_blanks (c : Char) :
    (blanks c).count '\n' = if c = '\n' then 1 else 0 := by
  unfold blanks
  split
  · rfl
  · exact List.count_eq_zero.mpr fun hmem => by simp [List.mem_replicate] at hmem

/-- The mask of a text whose characters stand in these regions. -/
def maskOf (m : Mask) (regions : List (Char × Region)) : Text :=
  regions.flatMap fun (c, r) => if r.isMasked m then blanks c else [c]

theorem mask_eq_maskOf (m : Mask) (t : Text) : t.mask m = maskOf m t.regions := rfl

theorem maskOf_append (m : Mask) (u v : List (Char × Region)) :
    maskOf m (u ++ v) = maskOf m u ++ maskOf m v :=
  List.flatMap_append

theorem size_blanks (c : Char) : size (blanks c) = c.utf8Size := by
  have hspaces (n : Nat) : size (List.replicate n ' ') = n := by
    induction n with
    | zero => rfl
    | succ n ih =>
        rw [List.replicate_succ, size_cons, ih, Nat.add_comm]
        rfl
  unfold blanks
  split
  · rename_i hc
    rw [hc]
    rfl
  · exact hspaces _

theorem size_maskOf (m : Mask) (regions : List (Char × Region)) :
    size (maskOf m regions) = size (regions.map Prod.fst) := by
  induction regions with
  | nil => rfl
  | cons x rest ih =>
      obtain ⟨c, r⟩ := x
      have hhead : size (if r.isMasked m then blanks c else [c]) = c.utf8Size := by
        split
        · exact size_blanks c
        · rfl
      rw [maskOf, List.flatMap_cons, size_append, hhead, ← maskOf, ih, List.map_cons, size_cons]

/-- The mask of a part of a text, cut out where a line begins in code, is that part of the mask. -/
theorem slice_mask {before body after : Text} (hbefore : before.IsLineStart)
    (hcode : before.endRegion = .code) (hafter : ∀ x, after.head? = some x → isPairEnd x = false)
    (m : Mask) :
    slice ((before ++ body ++ after).mask m) (size before) (size before + size body) =
      body.mask m := by
  have hregions : (before ++ body ++ after).regions = before.regions ++ body.regions ++
      regionsFrom (scanFrom start body) after := by
    rw [List.append_assoc, regions, regionsFrom_append_of_isLineStart start hbefore,
      scanFrom_start before, hcode, regionsFrom_append _ hafter, ← List.append_assoc]
    rfl
  have hsize (a : Text) : size (maskOf m a.regions) = size a := by
    rw [size_maskOf, map_fst_regions]
  rw [mask_eq_maskOf, hregions, maskOf_append, maskOf_append, ← hsize before, ← hsize body,
    slice_append, ← mask_eq_maskOf]

/-- A character that is no blank is left by a mask only where it stands outside its regions. -/
theorem exists_region_of_mem_mask {m : Mask} {t : Text} {c : Char}
    (hc : CharClass.isBlank c = false) (h : c ∈ t.mask m) :
    ∃ r, (c, r) ∈ t.regions ∧ r.isMasked m = false := by
  obtain ⟨⟨d, r⟩, hmem, hd⟩ := List.mem_flatMap.mp h
  change c ∈ (if r.isMasked m then blanks d else [d]) at hd
  by_cases hmask : r.isMasked m = true
  · rw [if_pos hmask] at hd
    rw [isBlank_of_mem_blanks hd] at hc
    contradiction
  · rw [if_neg hmask, List.mem_singleton] at hd
    subst hd
    exact ⟨r, hmem, by simpa using hmask⟩

theorem mask_append_semicolon (m : Mask) (h : a.endRegion = .code) :
    (a ++ ';' :: b).mask m = a.mask m ++ ';' :: b.mask m := by
  rw [mask_eq_maskOf, regions_append_semicolon h, maskOf_append, ← mask_eq_maskOf]
  rfl

/-- A mask keeps the line feeds. -/
theorem count_newline_maskOf (m : Mask) (regions : List (Char × Region)) :
    (maskOf m regions).count '\n' = (regions.map Prod.fst).count '\n' := by
  induction regions with
  | nil => rfl
  | cons x rest ih =>
      obtain ⟨c, r⟩ := x
      have hhead : (if r.isMasked m then blanks c else [c]).count '\n' = [c].count '\n' := by
        split
        · rw [count_newline_blanks, List.count_singleton]
          simp
        · rfl
      rw [maskOf, List.flatMap_cons, List.count_append, hhead, ← maskOf, ih, List.map_cons,
        ← List.count_append, List.singleton_append]

theorem count_newline_mask (m : Mask) (t : Text) :
    (t.mask m).count '\n' = t.count '\n' := by
  rw [mask_eq_maskOf, count_newline_maskOf, map_fst_regions]

/-- A text holds no code when all its characters outside comments are blank. -/
theorem isBlankSql_iff (t : Text) :
    t.isBlankSql = true ↔ ∀ x ∈ t.regions, x.2.isMasked .comments = true ∨
      CharClass.isBlank x.1 = true := by
  unfold isBlankSql isBlank mask
  rw [List.all_flatMap, List.all_eq_true]
  refine forall₂_congr fun x _ => ?_
  by_cases hmask : x.2.isMasked .comments = true
  · simpa [hmask] using fun y (hy : y ∈ blanks x.1) => isBlank_of_mem_blanks hy
  · simp [hmask]

/-- Blanks around a text are no code. -/
theorem isBlankSql_of_blank_around (body : Text) {lead tail : Text}
    (hlead : lead.isBlank = true) (htail : tail.isBlank = true) :
    (lead ++ body ++ tail).isBlankSql = body.isBlankSql := by
  obtain ⟨w, hregions, hw⟩ := exists_regions_of_blank_around body hlead htail
  rw [isBlank, List.all_eq_true] at hlead htail
  have hbehind : ∀ x ∈ w, CharClass.isBlank x.1 = true := by
    intro x hx
    apply htail
    rw [← hw]
    exact List.mem_map_of_mem hx
  rw [Bool.eq_iff_iff, isBlankSql_iff, isBlankSql_iff, hregions]
  constructor
  · intro h x hx
    exact h x (List.mem_append_left _ (List.mem_append_right _ hx))
  · intro h x hx
    rcases List.mem_append.mp hx with hx | hx
    · rcases List.mem_append.mp hx with hx | hx
      · obtain ⟨c, hc, rfl⟩ := List.mem_map.mp hx
        exact Or.inr (hlead c hc)
      · exact h x hx
    · exact Or.inr (hbehind x hx)

theorem isBlankSql_append_of_isBlank (h : a.isBlank = true) (b : Text) :
    (a ++ b).isBlankSql = b.isBlankSql := by
  have hnil : isBlank [] = true := rfl
  rw [← isBlankSql_of_blank_around b h hnil, List.append_nil]

end Text

end SqlInsight
