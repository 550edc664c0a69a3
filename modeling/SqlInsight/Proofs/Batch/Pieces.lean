/-
The pieces of a batch. Cutting at the first semicolon of the code leaves a text that is scanned and
cut like a batch of its own; from this follow the order of the pieces, where they stand, and that
nothing but blanks, semicolons and comments lies outside them.
-/
import SqlInsight.Batch
import SqlInsight.Proofs.Text.Scan

namespace SqlInsight

namespace Text

/-- Whether the character with that index is neither a blank nor a semicolon, nor part of a
comment. -/
def IsCode (t : Text) (i : Nat) : Prop :=
  ∃ c r, t.regions[i]? = some (c, r) ∧ r.isMasked .comments = false ∧
    CharClass.isBlank c = false ∧ c ≠ ';'

theorem getElem?_of_regions {t : Text} {i : Nat} {x : Char × Region}
    (h : t.regions[i]? = some x) : t[i]? = some x.1 := by
  rw [← map_fst_regions t, List.getElem?_map, h, Option.map_some]

theorem IsCode.not_isBlankSql {t : Text} {i : Nat} (h : t.IsCode i) :
    t.isBlankSql = false := by
  obtain ⟨c, r, hget, hcomment, hblank, -⟩ := h
  rw [Bool.eq_false_iff, ne_eq, isBlankSql_iff]
  intro hall
  rcases hall _ (List.mem_of_getElem? hget) with hmask | hspace
  · simp [hcomment] at hmask
  · simp [hblank] at hspace

/-- What is code of a text is code of any part before a character that ends no pair. -/
theorem isCode_append_left {a b : Text} (h : ∀ x, b.head? = some x → isPairEnd x = false)
    {i : Nat} (hi : i < a.length) : (a ++ b).IsCode i ↔ a.IsCode i := by
  unfold IsCode
  rw [regions_append h, List.getElem?_append_left (by rwa [length_regions])]

end Text

namespace Piece

open Text

/-- The stretches between the semicolons of the code: the first one ends at the first of them, and
the others are those of the text behind it. -/
theorem cut_regionsFrom {s : ScanState} (hs : s.Proper) (t : Text) :
    (cut (regionsFrom s t) = [(t, false)] ∧ (';', .code) ∉ regionsFrom s t) ∨
      ∃ raw rest : Text, t = raw ++ ';' :: rest ∧
        regionsFrom s t = regionsFrom s raw ++ (';', .code) :: rest.regions ∧
        (';', .code) ∉ regionsFrom s raw ∧
        cut (regionsFrom s t) = (raw, true) :: cut rest.regions := by
  induction t generalizing s with
  | nil => exact Or.inl ⟨rfl, by simp [regionsFrom]⟩
  | cons c rest ih =>
      rw [regionsFrom_cons]
      by_cases hcut : c = ';' ∧ (s.step c rest.head?).1 = .code
      · obtain ⟨rfl, hcode⟩ := hcut
        refine Or.inr ⟨[], rest, rfl, ?_, by simp [regionsFrom], ?_⟩
        · rw [hcode, ScanState.step_semicolon hs hcode]
          rfl
        · rw [hcode, ScanState.step_semicolon hs hcode]
          simp [cut, regions]
      · have hne : (';', .code) ≠ (c, (s.step c rest.head?).1) := by
          intro heq
          obtain ⟨hc, hr⟩ := Prod.mk.inj heq
          exact hcut ⟨hc.symm, hr.symm⟩
        rcases ih (ScanState.step_proper s c rest.head?) with ⟨hcutRest, hmem⟩ |
          ⟨raw, tail, rfl, hregions, hmem, hcutRest⟩
        · refine Or.inl ⟨?_, by simp [hne, hmem]⟩
          simp [cut, hcut, hcutRest]
        · have hstep : s.step c (raw ++ ';' :: tail).head? = s.step c raw.head? :=
            step_head?_append s c (by simp [isPairEnd])
          rw [hstep] at hcut hne hregions hmem hcutRest ⊢
          refine Or.inr ⟨c :: raw, tail, rfl, ?_, ?_, ?_⟩
          · rw [hregions, regionsFrom_cons, List.cons_append]
          · rw [regionsFrom_cons]
            simp [hne, hmem]
          · simp [cut, hcut, hcutRest]

def splitFrom (offset : Nat) (t : Text) : List Piece :=
  ofStretches offset (cut t.regions)

theorem split_eq_splitFrom (batch : Text) : split batch = splitFrom 0 batch := rfl

/-- Induction over the pieces of a text: a text without semicolons in its code is at most one piece;
another one has those of what stands before the first of them and of what stands behind it. -/
theorem splitFrom_induct {motive : Nat → Text → Prop}
    (single : ∀ (offset : Nat) (t : Text), (';', .code) ∉ t.regions →
      splitFrom offset t = (ofStretch? offset t false).toList → motive offset t)
    (more : ∀ (offset : Nat) (raw rest : Text), (';', .code) ∉ raw.regions →
      regions (raw ++ ';' :: rest) = raw.regions ++ (';', .code) :: rest.regions →
      splitFrom offset (raw ++ ';' :: rest) =
        (ofStretch? offset raw true).toList ++ splitFrom (offset + size raw + 1) rest →
      motive (offset + size raw + 1) rest → motive offset (raw ++ ';' :: rest))
    (offset : Nat) (t : Text) : motive offset t := by
  induction hlength : t.length using Nat.strong_induction_on generalizing offset t with
  | h n ih =>
      rcases cut_regionsFrom (s := .start) trivial t with ⟨hcut, hmem⟩ |
        ⟨raw, rest, rfl, hregions, hmem, hcut⟩
      · apply single offset t hmem
        rw [splitFrom, regions, hcut]
        simp [ofStretches]
      · apply more offset raw rest hmem hregions
        · rw [splitFrom, regions, hcut]
          rfl
        · apply ih rest.length _ _ _ rfl
          rw [← hlength, List.length_append, List.length_cons]
          omega

/-- A piece stands in a text that starts at that offset: it is a stretch of it, not empty and
without blanks around it. -/
structure StandsIn (t : Text) (offset : Nat) (p : Piece) : Prop where
  exists_append : ∃ before after, t = before ++ p.text ++ after ∧ p.first = offset + size before
  last_eq : p.last = p.first + size p.text
  ne_nil : p.text ≠ []
  trim_eq : p.text.trim = p.text

theorem StandsIn.le_first {t : Text} {offset : Nat} {p : Piece} (h : p.StandsIn t offset) :
    offset ≤ p.first := by
  obtain ⟨before, after, -, hfirst⟩ := h.exists_append
  omega

theorem StandsIn.last_le {t : Text} {offset : Nat} {p : Piece} (h : p.StandsIn t offset) :
    p.last ≤ offset + size t := by
  obtain ⟨before, after, rfl, hfirst⟩ := h.exists_append
  rw [h.last_eq, hfirst, size_append, size_append]
  omega

/-- A piece of a part of a text stands in the whole. -/
theorem StandsIn.append {t : Text} (before after : Text) {offset : Nat} {p : Piece}
    (h : p.StandsIn t (offset + size before)) : p.StandsIn (before ++ t ++ after) offset := by
  obtain ⟨before', after', rfl, hfirst⟩ := h.exists_append
  refine ⟨⟨before ++ before', after' ++ after, by simp, ?_⟩, h.last_eq, h.ne_nil, h.trim_eq⟩
  rw [hfirst, size_append, Nat.add_assoc]

theorem ofStretch?_standsIn {offset : Nat} {raw : Text} {terminated : Bool} {p : Piece}
    (h : ofStretch? offset raw terminated = some p) : p.StandsIn raw offset := by
  unfold ofStretch? at h
  split at h
  · contradiction
  · rename_i hblank
    obtain ⟨lead, tail, hraw, hlead, htail, hsize⟩ := exists_trim raw
    obtain rfl := Option.some.inj h
    refine ⟨⟨lead, tail, hraw, by rw [hsize]⟩, rfl, ?_, trim_trim raw⟩
    intro hnil
    apply hblank
    rw [isBlankSql_iff]
    intro x hx
    have hmem : x.1 ∈ raw := by
      rw [← map_fst_regions raw]
      exact List.mem_map_of_mem hx
    change raw.trim = [] at hnil
    rw [hraw, hnil, List.append_nil, List.mem_append] at hmem
    exact Or.inr (hmem.elim (hlead x.1) (htail x.1))

theorem ofStretch?_covers (offset : Nat) {raw : Text} (terminated : Bool) {i : Nat}
    (h : raw.IsCode i) : ∃ p, ofStretch? offset raw terminated = some p ∧
      p.first ≤ offset + size (raw.take i) ∧ offset + size (raw.take (i + 1)) ≤ p.last := by
  obtain ⟨lead, tail, hraw, hlead, htail, hsize⟩ := exists_trim raw
  obtain ⟨c, r, hget, -, hblank, -⟩ := id h
  have hchar : (lead ++ raw.trim ++ tail)[i]? = some c := by
    rw [← hraw]
    exact getElem?_of_regions hget
  have hcovers := middle_covers hlead htail hchar (by simp [hblank])
  rw [← hraw] at hcovers
  refine ⟨_, by rw [ofStretch?, h.not_isBlankSql]; rfl, ?_⟩
  simp only [hsize]
  omega

theorem splitFrom_standsIn {offset : Nat} {t : Text} {p : Piece} (hp : p ∈ splitFrom offset t) :
    p.StandsIn t offset := by
  induction offset, t using splitFrom_induct with
  | single offset t _ hsplit =>
      rw [hsplit, Option.mem_toList] at hp
      exact ofStretch?_standsIn hp
  | more offset raw rest _ _ hsplit ih =>
      rw [hsplit, List.mem_append, Option.mem_toList] at hp
      rcases hp with hfirst | hrest
      · have hstands := ofStretch?_standsIn hfirst
        simpa using hstands.append [] (';' :: rest)
      · have hstands : p.StandsIn rest (offset + size (raw ++ [';'])) := by
          simpa [size_append, Nat.add_assoc] using ih hrest
        simpa using hstands.append (raw ++ [';']) []

/-- Every piece ends before the next one starts: at least their semicolon lies between them. -/
theorem splitFrom_pairwise (offset : Nat) (t : Text) :
    (splitFrom offset t).Pairwise fun p q => p.last < q.first := by
  induction offset, t using splitFrom_induct with
  | single offset t _ hsplit =>
      rw [hsplit]
      cases ofStretch? offset t false <;> simp
  | more offset raw rest _ _ hsplit ih =>
      rw [hsplit, List.pairwise_append]
      refine ⟨by cases ofStretch? offset raw true <;> simp, ih, ?_⟩
      intro p hp q hq
      have hlast := (ofStretch?_standsIn (Option.mem_toList.mp hp)).last_le
      have hfirst := (splitFrom_standsIn hq).le_first
      omega

/-- Blanks and semicolons are no statement. -/
theorem splitFrom_eq_nil {offset : Nat} {t : Text}
    (h : ∀ c ∈ t, CharClass.isBlank c = true ∨ c = ';') : splitFrom offset t = [] := by
  have hblank {raw : Text} (hraw : ∀ c ∈ raw, CharClass.isBlank c = true ∨ c = ';')
      (hmem : (';', .code) ∉ raw.regions) : raw.isBlankSql = true := by
    rw [regions_of_blank_or_semicolon hraw] at hmem
    rw [isBlankSql_iff, regions_of_blank_or_semicolon hraw]
    intro x hx
    obtain ⟨c, hc, rfl⟩ := List.mem_map.mp hx
    rcases hraw c hc with hspace | rfl
    · exact Or.inr hspace
    · exact absurd hx hmem
  induction offset, t using splitFrom_induct with
  | single offset t hmem hsplit =>
      rw [hsplit, ofStretch?, hblank h hmem]
      rfl
  | more offset raw rest hmem _ hsplit ih =>
      rw [hsplit, ih fun c hc => h c (List.mem_append_right _ (List.mem_cons_of_mem _ hc)),
        ofStretch?, hblank (fun c hc => h c (List.mem_append_left _ hc)) hmem]
      rfl

/-- Every character of the code lies in a piece. -/
theorem splitFrom_covers (offset : Nat) {t : Text} {i : Nat} (h : t.IsCode i) :
    ∃ p ∈ splitFrom offset t, p.first ≤ offset + size (t.take i) ∧
      offset + size (t.take (i + 1)) ≤ p.last := by
  induction offset, t using splitFrom_induct generalizing i with
  | single offset t _ hsplit =>
      obtain ⟨p, hp, hcovers⟩ := ofStretch?_covers offset false h
      exact ⟨p, by rw [hsplit]; exact Option.mem_toList.mpr hp, hcovers⟩
  | more offset raw rest _ hregions hsplit ih =>
      rw [hsplit]
      have hpair : ∀ x, (';' :: rest).head? = some x → isPairEnd x = false := by
        simp [isPairEnd]
      rcases Nat.lt_or_ge i raw.length with hi | hi
      · obtain ⟨p, hp, hcovers⟩ :=
          ofStretch?_covers offset true ((isCode_append_left hpair hi).mp h)
        refine ⟨p, List.mem_append_left _ (Option.mem_toList.mpr hp), ?_⟩
        rwa [size_take_append_left _ _ (Nat.le_of_lt hi), size_take_append_left _ _ hi]
      · obtain ⟨j, rfl⟩ := Nat.exists_eq_add_of_le hi
        obtain ⟨c, r, hget, hcomment, hblank, hne⟩ := h
        rw [hregions, List.getElem?_append_right (by rw [length_regions]; omega),
          length_regions, Nat.add_sub_cancel_left] at hget
        cases j with
        | zero =>
            obtain ⟨hc, -⟩ := Prod.mk.inj (Option.some.inj hget)
            exact absurd hc.symm hne
        | succ k =>
            obtain ⟨p, hp, hcovers⟩ := ih ⟨c, r, hget, hcomment, hblank, hne⟩
            refine ⟨p, List.mem_append_right _ hp, ?_⟩
            rw [Nat.add_assoc raw.length, size_take_append_right, size_take_append_right,
              List.take_succ_cons, List.take_succ_cons, size_cons, size_cons, utf8Size_semicolon]
            omega

end Piece

end SqlInsight
