/-
The segments of a batch: what stands between the semicolons of its code. The pieces are the segments
that hold code, without the blanks around them. Every segment is scanned by itself as in the batch,
so the text of a piece is a batch of one piece.
-/
import SqlInsight.Proofs.Batch.Pieces
import SqlInsight.Proofs.Text.Utf8

namespace SqlInsight

namespace Piece

open Text

/-- The segments of a text: what stands between the semicolons of its code. -/
def segments (t : Text) : List Text :=
  (t.regions.splitOn (';', .code)).map (·.map Prod.fst)

def ended (segments : List Text) : Text :=
  segments.flatMap (· ++ [';'])

/-- A piece is a segment that starts at that offset and holds code, without the blanks around it. -/
structure Trims (offset : Nat) (raw : Text) (p : Piece) : Prop where
  exists_append : ∃ lead tail, raw = lead ++ p.text ++ tail ∧ lead.isBlank = true ∧
    tail.isBlank = true ∧ p.first = offset + size lead
  last_eq : p.last = p.first + size p.text
  trim_eq : p.text.trim = p.text
  not_blank : p.text.isBlankSql = false

/-- Whether a piece is one of some segments, the first of which starts at that offset. It is
terminated when another segment follows. -/
def IsSegment (offset : Nat) (segments : List Text) (p : Piece) : Prop :=
  ∃ before raw after, segments = before ++ raw :: after ∧
    p.Trims (offset + size (ended before)) raw ∧ p.terminated = !after.isEmpty

/-- Whether nothing but blanks stands between the end of a piece and a semicolon of the code. -/
def IsClosed (t : Text) (p : Piece) : Prop :=
  ∃ own blanks rest, t.regions = own ++ blanks ++ (';', .code) :: rest ∧
    size (own.map Prod.fst) = p.last ∧ ∀ x ∈ blanks, CharClass.isBlank x.1 = true

section Regions

variable {t raw rest : Text}

theorem splitOn_regions_of_not_mem (h : (';', .code) ∉ t.regions) :
    t.regions.splitOn (';', .code) = [t.regions] := by
  apply List.splitOnP_eq_singleton
  intro x hx
  exact beq_eq_false_iff_ne.mpr (ne_of_mem_of_not_mem hx h)

theorem splitOn_regions_append (hraw : (';', .code) ∉ raw.regions)
    (hregions : regions (raw ++ ';' :: rest) = raw.regions ++ (';', .code) :: rest.regions) :
    (regions (raw ++ ';' :: rest)).splitOn (';', .code) =
      raw.regions :: rest.regions.splitOn (';', .code) := by
  rw [hregions]
  apply List.splitOnP_append_cons_of_forall_mem
  · intro x hx
    exact beq_eq_false_iff_ne.mpr (ne_of_mem_of_not_mem hx hraw)
  · exact beq_self_eq_true _

theorem segments_of_not_mem (h : (';', .code) ∉ t.regions) : segments t = [t] := by
  rw [segments, splitOn_regions_of_not_mem h, List.map_singleton, map_fst_regions]

theorem segments_append (hraw : (';', .code) ∉ raw.regions)
    (hregions : regions (raw ++ ';' :: rest) = raw.regions ++ (';', .code) :: rest.regions) :
    segments (raw ++ ';' :: rest) = raw :: segments rest := by
  rw [segments, splitOn_regions_append hraw hregions, List.map_cons, map_fst_regions, segments]

theorem segments_ne_nil (t : Text) : segments t ≠ [] := by
  rw [segments, ne_eq, List.map_eq_nil_iff]
  exact List.splitOn_ne_nil _ _

end Regions

/-- The segments are scanned by themselves as in the text. -/
theorem splitOn_regions (t : Text) :
    t.regions.splitOn (';', .code) = (segments t).map regions := by
  induction 0, t using splitFrom_induct with
  | single offset t hmem _ =>
      rw [segments_of_not_mem hmem, splitOn_regions_of_not_mem hmem, List.map_singleton]
  | more offset raw rest hmem hregions _ ih =>
      rw [splitOn_regions_append hmem hregions, ih, segments_append hmem hregions, List.map_cons]

/-- With the semicolons put back the segments are the text, in the regions in which it stands. -/
theorem intercalate_regions (t : Text) :
    [(';', .code)].intercalate ((segments t).map regions) = t.regions := by
  rw [← splitOn_regions, List.intercalate_splitOn]

theorem intercalate_segments (t : Text) : [';'].intercalate (segments t) = t := by
  induction 0, t using splitFrom_induct with
  | single offset t hmem _ =>
      rw [segments_of_not_mem hmem]
      exact List.intercalate_singleton
  | more offset raw rest hmem hregions _ ih =>
      obtain ⟨next, more, hmore⟩ := List.exists_cons_of_ne_nil (segments_ne_nil rest)
      rw [segments_append hmem hregions, hmore, List.intercalate_cons_cons, ← hmore, ih,
        List.append_assoc, List.singleton_append]

theorem not_mem_of_mem_segments {t raw : Text} (h : raw ∈ segments t) :
    (';', .code) ∉ raw.regions := by
  induction 0, t using splitFrom_induct with
  | single offset t hmem _ =>
      rw [segments_of_not_mem hmem, List.mem_singleton] at h
      rwa [h]
  | more offset first rest hmem hregions _ ih =>
      rw [segments_append hmem hregions] at h
      rcases List.mem_cons.mp h with rfl | hrest
      · exact hmem
      · exact ih hrest

/-- The texts of the pieces are the segments that hold code, without the blanks around them. -/
theorem map_text_splitFrom (offset : Nat) (t : Text) :
    (splitFrom offset t).map text =
      ((segments t).filter fun raw => !raw.isBlankSql).map trim := by
  have hone (offset : Nat) (raw : Text) (terminated : Bool) :
      (ofStretch? offset raw terminated).toList.map text =
        if raw.isBlankSql then [] else [raw.trim] := by
    rw [ofStretch?]
    split <;> rfl
  induction offset, t using splitFrom_induct with
  | single offset t hmem hsplit =>
      rw [hsplit, hone, segments_of_not_mem hmem]
      cases hblank : t.isBlankSql <;> simp [hblank]
  | more offset raw rest hmem hregions hsplit ih =>
      rw [hsplit, List.map_append, hone, ih, segments_append hmem hregions]
      cases hblank : raw.isBlankSql <;> simp [hblank]

section Trimmed

variable {lead body tail : Text}

/-- A text with blanks around it, taken apart as trimming does. -/
theorem trim_of_blank_around (hlead : lead.isBlank = true) (htail : tail.isBlank = true)
    (hbody : body.trim = body) (hne : body ≠ []) :
    (lead ++ body ++ tail).trim = body ∧
      size (lead ++ body ++ tail) - size (lead ++ body ++ tail).trimStart = size lead := by
  obtain ⟨c, more, hcons⟩ := List.exists_cons_of_ne_nil hne
  have hfirst : CharClass.isBlank c = false := by
    apply trim_head? body
    rw [hbody, hcons]
    rfl
  have hstart : (lead ++ body ++ tail).trimStart = body ++ tail := by
    rw [List.append_assoc, trimStart_append_of_isBlank hlead, hcons]
    exact List.dropWhile_cons_of_neg (by simp [hfirst])
  constructor
  · rw [trim_append_of_isBlank _ htail, trim, trimStart_append_of_isBlank hlead, ← trim, hbody]
  · rw [hstart, List.append_assoc, size_append, Nat.add_sub_cancel]

/-- The piece of a segment. -/
theorem ofStretch?_eq_some_iff {offset : Nat} {raw : Text} {terminated : Bool} {p : Piece} :
    ofStretch? offset raw terminated = some p ↔
      p.Trims offset raw ∧ p.terminated = terminated := by
  constructor
  · intro h
    rw [ofStretch?] at h
    split at h
    · contradiction
    · rename_i hcode
      obtain ⟨lead, tail, hraw, hlead, htail, hsize⟩ := exists_trim raw
      have hlead' : lead.isBlank = true := List.all_eq_true.mpr hlead
      have htail' : tail.isBlank = true := List.all_eq_true.mpr htail
      obtain rfl := Option.some.inj h
      refine ⟨⟨⟨lead, tail, hraw, hlead', htail', by rw [hsize]⟩, rfl, trim_trim raw, ?_⟩, rfl⟩
      rw [hraw, isBlankSql_of_blank_around _ hlead' htail'] at hcode
      simpa using hcode
  · rintro ⟨⟨⟨lead, tail, rfl, hlead, htail, hfirst⟩, hlast, htrim, hcode⟩, rfl⟩
    have hne : p.text ≠ [] := by
      intro hnil
      rw [hnil] at hcode
      contradiction
    obtain ⟨htext, hsize⟩ := trim_of_blank_around hlead htail htrim hne
    rw [ofStretch?, isBlankSql_of_blank_around _ hlead htail, hcode, if_neg Bool.false_ne_true,
      htext, hsize, ← hfirst]
    dsimp only
    rw [← hlast]

end Trimmed

theorem not_isSegment_nil (offset : Nat) (p : Piece) : ¬IsSegment offset [] p := by
  rintro ⟨before, raw, after, hnil, -⟩
  simp at hnil

theorem isSegment_cons {offset : Nat} {raw : Text} {segments : List Text} {p : Piece} :
    IsSegment offset (raw :: segments) p ↔
      p.Trims offset raw ∧ p.terminated = (!segments.isEmpty) ∨
        IsSegment (offset + size raw + 1) segments p := by
  have hended (before : List Text) : offset + size (ended (raw :: before)) =
      offset + size raw + 1 + size (ended before) := by
    simp [ended, size_append]
    omega
  constructor
  · rintro ⟨before, own, after, hsegments, htrims, hterminated⟩
    cases before with
    | nil =>
        obtain ⟨rfl, rfl⟩ := List.cons.inj hsegments
        exact Or.inl ⟨htrims, hterminated⟩
    | cons first more =>
        obtain ⟨rfl, rfl⟩ := List.cons.inj hsegments
        rw [hended] at htrims
        exact Or.inr ⟨more, own, after, rfl, htrims, hterminated⟩
  · rintro (⟨htrims, hterminated⟩ | ⟨before, own, after, rfl, htrims, hterminated⟩)
    · exact ⟨[], raw, segments, rfl, htrims, hterminated⟩
    · rw [← hended] at htrims
      exact ⟨raw :: before, own, after, rfl, htrims, hterminated⟩

/-- The pieces of a text are its segments that hold code. -/
theorem mem_splitFrom_iff {offset : Nat} {t : Text} {p : Piece} :
    p ∈ splitFrom offset t ↔ IsSegment offset (segments t) p := by
  induction offset, t using splitFrom_induct with
  | single offset t hmem hsplit =>
      rw [hsplit, Option.mem_toList, ofStretch?_eq_some_iff, segments_of_not_mem hmem,
        isSegment_cons, or_iff_left (not_isSegment_nil _ _)]
      rfl
  | more offset raw rest hmem hregions hsplit ih =>
      have hmore : (!(segments rest).isEmpty) = true := by simp [segments_ne_nil]
      rw [hsplit, List.mem_append, Option.mem_toList, ofStretch?_eq_some_iff, ih,
        segments_append hmem hregions, isSegment_cons, hmore]

/-- A segment in the regions of its text: the segments before it with their semicolons, and behind
it the next semicolon or the end of the text. -/
theorem exists_regions_append {t raw : Text} {before after : List Text}
    (h : segments t = before ++ raw :: after) :
    ∃ u rest, t.regions = u ++ raw.regions ++ rest ∧ u.map Prod.fst = ended before ∧
      (rest = [] ∧ after = [] ∨ (∃ more, rest = (';', .code) :: more) ∧ after ≠ []) := by
  induction 0, t using splitFrom_induct generalizing before with
  | single offset t hmem _ =>
      rw [segments_of_not_mem hmem] at h
      obtain ⟨rfl, hraw⟩ : before = [] ∧ raw :: after = [t] := by
        cases before with
        | nil => exact ⟨rfl, h.symm⟩
        | cons first more => simp at h
      obtain ⟨rfl, rfl⟩ := List.cons.inj hraw
      exact ⟨[], [], by simp, rfl, Or.inl ⟨rfl, rfl⟩⟩
  | more offset first rest hmem hregions _ ih =>
      rw [segments_append hmem hregions] at h
      cases before with
      | nil =>
          obtain ⟨rfl, rfl⟩ := List.cons.inj h
          exact ⟨[], _, hregions, rfl, Or.inr ⟨⟨_, rfl⟩, segments_ne_nil rest⟩⟩
      | cons own more =>
          obtain ⟨rfl, hrest⟩ := List.cons.inj h
          obtain ⟨u, behind, hbehind, hu, hcases⟩ := ih hrest
          refine ⟨first.regions ++ (';', .code) :: u, behind, ?_, ?_, hcases⟩
          · rw [hregions, hbehind]
            simp
          · simp [ended, hu]

theorem splitFrom_of_not_mem {t : Text} (h : (';', .code) ∉ t.regions) (offset : Nat) :
    splitFrom offset t = (ofStretch? offset t false).toList := by
  rcases cut_regionsFrom (s := .start) trivial t with ⟨hcut, -⟩ | ⟨raw, rest, rfl, hregions, -, -⟩
  · rw [splitFrom, regions, hcut]
    simp [ofStretches]
  · refine absurd ?_ h
    rw [regions, hregions]
    simp

section Split

variable {t : Text} {p : Piece}

/-- A piece is terminated exactly if a semicolon of the code closes it. -/
theorem terminated_iff_isClosed (hp : p ∈ split t) : p.terminated = true ↔ IsClosed t p := by
  obtain ⟨before, raw, after, hsegments,
    ⟨⟨lead, tail, rfl, hlead, htail, hfirst⟩, hlast, -, -⟩, hterminated⟩ := mem_splitFrom_iff.mp hp
  obtain ⟨u, rest, hregions, hu, hcases⟩ := exists_regions_append hsegments
  obtain ⟨w, hown, hw⟩ := exists_regions_of_blank_around p.text hlead htail
  have hblank : ∀ c ∈ tail, CharClass.isBlank c = true := List.all_eq_true.mp htail
  generalize hupto : u ++ (lead.map (·, Region.code) ++ p.text.regions) = upto
  have hsize : size (upto.map Prod.fst) = p.last := by
    rw [hlast, hfirst, ← hupto, List.map_append, List.map_append, hu, map_fst_regions,
      List.map_map, size_append, size_append]
    simp [Function.comp_def]
    omega
  have hall : t.regions = upto ++ w ++ rest := by
    rw [hregions, hown, ← hupto]
    simp
  rcases hcases with ⟨rfl, rfl⟩ | ⟨⟨more, rfl⟩, hne⟩
  · refine iff_of_false (by simp [hterminated]) ?_
    rintro ⟨upto', blanks, more, hregions', hsize', -⟩
    have hcut : upto'.map Prod.fst ++ (blanks ++ (';', Region.code) :: more).map Prod.fst =
        upto.map Prod.fst ++ w.map Prod.fst := by
      rw [← List.map_append, ← List.map_append, ← List.append_assoc, ← hregions', hall,
        List.append_nil]
    obtain ⟨m, -, hbehind⟩ := exists_append_of_size_le hcut.symm (by rw [hsize, hsize'])
    have hmem : ';' ∈ tail := by
      rw [← hw, hbehind]
      simp
    exact absurd (hblank _ hmem) (by decide)
  · refine iff_of_true (by simp [hterminated, hne]) ⟨upto, w, more, hall, hsize, ?_⟩
    intro x hx
    apply hblank
    rw [← hw]
    exact List.mem_map_of_mem hx

/-- The text of a piece is a batch of that one piece. -/
theorem split_text (hp : p ∈ split t) : split p.text = [⟨p.text, 0, size p.text, false⟩] := by
  obtain ⟨before, raw, after, hsegments,
    ⟨⟨lead, tail, rfl, hlead, htail, -⟩, -, htrim, hcode⟩, -⟩ := mem_splitFrom_iff.mp hp
  obtain ⟨w, hown, -⟩ := exists_regions_of_blank_around p.text hlead htail
  have hmem : (';', .code) ∉ p.text.regions := by
    have hraw : lead ++ p.text ++ tail ∈ segments t := by
      rw [hsegments]
      simp
    have hnot := not_mem_of_mem_segments hraw
    rw [hown] at hnot
    exact fun hmem => hnot (List.mem_append_left _ (List.mem_append_right _ hmem))
  have hpiece : ofStretch? 0 p.text false = some ⟨p.text, 0, size p.text, false⟩ :=
    ofStretch?_eq_some_iff.mpr
      ⟨⟨⟨[], [], by simp, rfl, rfl, rfl⟩, (Nat.zero_add _).symm, htrim, hcode⟩, rfl⟩
  rw [split_eq_splitFrom, splitFrom_of_not_mem hmem, hpiece]
  rfl

/-- The bytes of a piece are those of the batch between its offsets, where it can be cut. -/
theorem slice_of_mem_split (hp : p ∈ split t) :
    t.slice p.first p.last = p.text ∧ t.isBoundary p.first = true ∧
      t.isBoundary p.last = true := by
  have hstands := splitFrom_standsIn hp
  obtain ⟨before, after, ht, hfirst⟩ := hstands.exists_append
  rw [Nat.zero_add] at hfirst
  exact slice_isBoundary_of_eq ht hfirst (by rw [hstands.last_eq, hfirst, size_append])

end Split

/-- A batch is split exactly at the semicolons of its code. Its segments with these semicolons put
back are the batch, each of them scanned by itself as in the batch and without such a semicolon. The
pieces are the segments that hold code, without the blanks around them, in order; a piece stands
where its offsets say, it is terminated exactly if such a semicolon closes it, and it is the one
piece of its own text. -/
theorem split_exact (t : Text) :
    [';'].intercalate (segments t) = t ∧
      [(';', .code)].intercalate ((segments t).map regions) = t.regions ∧
      (∀ raw ∈ segments t, (';', .code) ∉ raw.regions) ∧
      (split t).map text = ((segments t).filter fun raw => !raw.isBlankSql).map trim ∧
      (∀ p, p ∈ split t ↔ IsSegment 0 (segments t) p) ∧
      ((split t).Pairwise fun p q => p.last < q.first) ∧
      ∀ p ∈ split t, t.slice p.first p.last = p.text ∧ t.isBoundary p.first = true ∧
        t.isBoundary p.last = true ∧ p.text.isBlankSql = false ∧
        (p.terminated = true ↔ IsClosed t p) ∧
        split p.text = [⟨p.text, 0, size p.text, false⟩] := by
  refine ⟨intercalate_segments t, intercalate_regions t, fun raw => not_mem_of_mem_segments,
    map_text_splitFrom 0 t, fun p => mem_splitFrom_iff, splitFrom_pairwise 0 t, fun p hp => ?_⟩
  obtain ⟨hslice, hfirst, hlast⟩ := slice_of_mem_split hp
  obtain ⟨before, raw, after, -, htrims, -⟩ := mem_splitFrom_iff.mp hp
  exact ⟨hslice, hfirst, hlast, htrims.not_blank, terminated_iff_isClosed hp, split_text hp⟩

end Piece

end SqlInsight
