/-
The layout of a buffer: its lines are separator lines and the maximal stretches between them. A
stretch that holds code has a batch, which leaves out the line breaks at its end; the others have
none. A batch stands at the start of a line, and positions in it are positions in the buffer but for
the lines before it.
-/
import SqlInsight.Proofs.Batch.Bounds
import SqlInsight.Proofs.Text.Utf8

namespace SqlInsight

open Text

namespace Batch

/-- Whether the line behind that many lines of a buffer is a separator line. -/
def isSeparatorAt (separator t : Text) (i : Nat) : Bool :=
  ((t.mask .identifiers).lines[i]?).any (isSeparatorLine separator)

/-- Whether the line behind that many lines is one of a stretch. -/
def Stretch.HasLine (s : Stretch) (i : Nat) : Prop :=
  s.before.length ≤ i ∧ i < s.before.length + s.own.length

/-- The lines of a stretch are consecutive lines of a buffer, none of them a separator line. They go
on up to a separator line or the end of the buffer in both directions. -/
structure Stretch.IsMaximal (separator t : Text) (s : Stretch) : Prop where
  exists_lines : ∃ after, t.lines = s.before ++ s.own ++ after
  own : ∀ i, s.HasLine i → isSeparatorAt separator t i = false
  above : s.before = [] ∨ ∃ i, s.before.length = i + 1 ∧ isSeparatorAt separator t i = true
  below : s.before.length + s.own.length = t.lineCount ∨
    isSeparatorAt separator t (s.before.length + s.own.length) = true

/-- A batch is that of a stretch: it starts where the stretch does, and what it leaves out of the
text of the stretch is line breaks. -/
structure IsOf (b : Batch) (s : Stretch) : Prop where
  startLine_eq : b.startLine = s.before.length + 1
  offset_eq : b.offset = size (terminated s.before)
  exists_breaks : ∃ breaks, s.text = b.text ++ breaks ∧ ∀ c ∈ breaks, c = '\n' ∨ c = '\r'

section StretchesFrom

variable {separator line masked : Text} {s s' : Stretch} {rest : List (Text × Text)} {i : Nat}

/-- The stretch that has not ended goes on with the lines up to the next separator line. -/
theorem exists_mem_stretchesFrom (separator : Text) (s : Stretch) (rest : List (Text × Text)) :
    ∃ more, { s with own := s.own ++ more } ∈ stretchesFrom separator s rest := by
  induction rest generalizing s with
  | nil => exact ⟨[], by simp [stretchesFrom]⟩
  | cons x rest ih =>
      obtain ⟨line, masked⟩ := x
      rw [stretchesFrom]
      split
      · exact ⟨[], by simp⟩
      · obtain ⟨more, hmore⟩ := ih { s with own := s.own ++ [line] }
        refine ⟨line :: more, ?_⟩
        simpa using hmore

/-- A line is one of a stretch exactly if it is no separator line. -/
theorem exists_hasLine_iff (h : rest[i]? = some (line, masked)) :
    (∃ s' ∈ stretchesFrom separator s rest,
        s'.HasLine (s.before.length + s.own.length + i)) ↔
      isSeparatorLine separator masked = false := by
  induction rest generalizing s i with
  | nil => simp at h
  | cons x rest ih =>
      obtain ⟨first, firstMasked⟩ := x
      have hnext {s₁ : Stretch} {i : Nat} (hi : rest[i]? = some (line, masked))
          (hlength : s₁.before.length + s₁.own.length =
            s.before.length + s.own.length + 1) :
          (∃ s' ∈ stretchesFrom separator s₁ rest,
              s'.HasLine (s.before.length + s.own.length + (i + 1))) ↔
            isSeparatorLine separator masked = false := by
        have hrest := ih (s := s₁) hi
        rwa [hlength, Nat.add_assoc _ 1, Nat.add_comm 1] at hrest
      rw [stretchesFrom]
      by_cases hsep : isSeparatorLine separator firstMasked = true
      · have hended : ¬ s.HasLine (s.before.length + s.own.length + i) := by
          intro hhas
          exact Nat.not_lt_of_le (Nat.le_add_right _ _) hhas.2
        simp only [if_pos hsep, List.exists_mem_cons_iff, hended, false_or]
        cases i with
        | zero =>
            obtain ⟨rfl, rfl⟩ := Prod.mk.inj (Option.some.inj h)
            refine iff_of_false ?_ (by simp [hsep])
            rintro ⟨s', hs', hfirst, -⟩
            obtain ⟨⟨more, hmore⟩, -⟩ := exists_after_of_mem_stretchesFrom hs'
            rw [hmore] at hfirst
            simp only [List.length_append, List.length_singleton] at hfirst
            omega
        | succ i =>
            apply hnext h
            simp [Nat.add_assoc]
      · rw [if_neg hsep]
        cases i with
        | zero =>
            obtain ⟨rfl, rfl⟩ := Prod.mk.inj (Option.some.inj h)
            refine iff_of_true ?_ (by simpa using hsep)
            obtain ⟨more, hmore⟩ :=
              exists_mem_stretchesFrom separator { s with own := s.own ++ [first] } rest
            refine ⟨_, hmore, ?_, ?_⟩
            · exact Nat.le_add_right _ _
            · simp only [List.length_append, List.length_singleton]
              omega
        | succ i =>
            apply hnext h
            simp [Nat.add_assoc]

end StretchesFrom

section Layout

variable {separator t : Text} {s : Stretch} {b : Batch} {i : Nat}

theorem isSeparatorAt_of_getElem? {line masked : Text}
    (h : (t.lines.zip (t.mask .identifiers).lines)[i]? = some (line, masked)) :
    isSeparatorAt separator t i = isSeparatorLine separator masked := by
  rw [isSeparatorAt, (List.getElem?_zip_eq_some.mp h).2, Option.any_some]

/-- Every line of a buffer has a masked form. -/
theorem exists_masked_of_lt (h : i < t.lineCount) :
    ∃ line masked, (t.lines.zip (t.mask .identifiers).lines)[i]? = some (line, masked) := by
  have hmasked : i < (t.mask .identifiers).lines.length := by
    rwa [length_lines, count_newline_mask, ← length_lines]
  refine ⟨t.lines[i], (t.mask .identifiers).lines[i], List.getElem?_zip_eq_some.mpr ⟨?_, ?_⟩⟩
  · exact List.getElem?_eq_getElem h
  · exact List.getElem?_eq_getElem hmasked

theorem isMaximal_of_mem_stretches (h : s ∈ stretches separator t) : s.IsMaximal separator t := by
  obtain ⟨after, hlines⟩ := exists_lines_of_mem_stretches h
  have hfollows := follows_of_mem_stretchesFrom h
  have hcount : (t.lines.zip (t.mask .identifiers).lines).length = t.lineCount := by
    rw [← List.length_map, map_fst_zip_mask, lineCount]
  refine ⟨⟨after, hlines⟩, ?_, ?_, ?_⟩
  · intro i hi
    have hlt : i < t.lineCount := by
      rw [lineCount, hlines, List.length_append, List.length_append]
      exact Nat.lt_add_right _ hi.2
    obtain ⟨line, masked, hget⟩ := exists_masked_of_lt hlt
    rw [isSeparatorAt_of_getElem? hget]
    apply (exists_hasLine_iff (s := ⟨[], []⟩) hget).mp
    exact ⟨s, h, by simpa using hi⟩
  · rcases hfollows.above with hnil | ⟨i, line, masked, hget, hsep, hlength⟩
    · exact Or.inl hnil
    · refine Or.inr ⟨i, by simpa using hlength, ?_⟩
      rwa [isSeparatorAt_of_getElem? hget]
  · rcases hfollows.below with hlength | ⟨i, line, masked, hget, hsep, hlength⟩
    · exact Or.inl (by simpa [hcount] using hlength)
    · refine Or.inr ?_
      obtain rfl : s.before.length + s.own.length = i := by simpa using hlength
      rwa [isSeparatorAt_of_getElem? hget]

/-- A stretch holds no code or has a batch. -/
theorem isBlankSql_or_exists_batch (h : s ∈ stretches separator t) :
    s.text.isBlankSql = true ∨ ∃ b ∈ split separator t, b.IsOf s := by
  obtain ⟨breaks, htext, hbreaks⟩ := s.exists_body_append
  have hblank : breaks.isBlank = true := by
    apply List.all_eq_true.mpr
    intro c hc
    rcases hbreaks c hc with rfl | rfl <;> decide
  have hsame : s.text.isBlankSql = s.body.isBlankSql := by
    have hnil : Text.isBlank [] = true := rfl
    rw [htext, ← isBlankSql_of_blank_around s.body hnil hblank]
    rfl
  by_cases hcode : s.body.isBlankSql = true
  · exact Or.inl (hsame.trans hcode)
  · refine Or.inr ⟨⟨s.body, s.before.length + 1, s.offset⟩, ?_, rfl, rfl, breaks, htext, hbreaks⟩
    rw [split_eq_filterMap, List.mem_filterMap]
    exact ⟨s, h, by rw [s.batch?_eq, if_neg hcode]⟩

/-- Every batch is that of a maximal stretch. -/
theorem exists_isMaximal_of_mem_split (hb : b ∈ split separator t) :
    ∃ s : Stretch, s.IsMaximal separator t ∧ s.own ≠ [] ∧ b.IsOf s := by
  obtain ⟨s, hs, hown, -, rfl⟩ := exists_of_mem_split hb
  exact ⟨s, isMaximal_of_mem_stretches hs, hown, rfl, rfl, s.exists_body_append⟩

/-- The lines of a batch are lines of its stretch. -/
theorem IsOf.hasLine (h : b.IsOf s) (hs : s.IsMaximal separator t) (hown : s.own ≠ [])
    (hfirst : b.startLine ≤ i + 1) (hlast : i + 1 ≤ b.endLine) : s.HasLine i := by
  obtain ⟨breaks, htext, -⟩ := h.exists_breaks
  obtain ⟨after, hlines⟩ := hs.exists_lines
  have hcount : (terminated s.own).count '\n' = s.own.length := by
    apply count_newline_terminated
    intro line hline
    apply newline_not_mem_of_mem_lines (t := t)
    rw [hlines]
    exact List.mem_append_left _ (List.mem_append_right _ hline)
  have hterminated : terminated s.own = b.text ++ breaks ++ ['\n'] := by
    rw [terminated_eq hown, ← htext]
    rfl
  rw [hterminated, List.count_append, List.count_append, List.count_singleton_self] at hcount
  have hstart := h.startLine_eq
  rw [endLine] at hlast
  constructor <;> omega

theorem isSeparatorAt_of_mem_split (hb : b ∈ split separator t) (hfirst : b.startLine ≤ i + 1)
    (hlast : i + 1 ≤ b.endLine) : isSeparatorAt separator t i = false := by
  obtain ⟨s, hs, hown, hof⟩ := exists_isMaximal_of_mem_split hb
  exact hs.own i (hof.hasLine hs hown hfirst hlast)

/-- The offset of a batch is that of the line on which it starts. -/
theorem offset?_startLine (hb : b ∈ split separator t) :
    t.offset? ⟨b.startLine, 1⟩ = some b.offset := by
  obtain ⟨s, hs, hown, hof⟩ := exists_isMaximal_of_mem_split hb
  obtain ⟨after, hlines⟩ := hs.exists_lines
  obtain ⟨line, more, hcons⟩ := List.exists_cons_of_ne_nil hown
  rw [hcons, List.append_assoc, List.cons_append] at hlines
  rw [offset?_eq hlines hof.startLine_eq, hof.offset_eq]
  simp

/-- Positions in a batch are positions in the buffer, but for the lines before the batch. -/
theorem position_of_mem_split (hb : b ∈ split separator t) {o l c : Nat}
    (ho : b.text.isBoundary o = true) (h : b.text.position o = ⟨l, c⟩) :
    t.position (b.offset + o) = ⟨b.startLine + l - 1, c⟩ := by
  have hle : o ≤ size b.text := by
    obtain ⟨before, after, htext, rfl⟩ := (isBoundary_iff_isCut o b.text).mp ho
    rw [htext, size_append]
    exact Nat.le_add_right _ _
  have hstands := standsIn_of_mem_split hb
  obtain ⟨earlier, after, -, -, hline⟩ := hstands.exists_append
  rw [hstands.position_add hle, h, Position.down, Position.mk.injEq]
  refine ⟨?_, rfl⟩
  simp only
  omega

end Layout

/-- A buffer is split faithfully. Its batches stand in order and apart. A batch holds code and is
the slice of the buffer at its offset, which is the start of its first line; no line of it is a
separator line, and the position of a boundary of its text is that in the buffer, but for the lines
before it. A batch is that of a maximal stretch between separator lines. A line of the buffer is a
separator line, or it is one of a maximal stretch between them, which holds no code or has a batch
that leaves out nothing but line breaks at its end. -/
theorem split_faithful (separator t : Text) :
    ((split separator t).Pairwise fun b b' =>
        b.offset + size b.text < b'.offset ∧ b.endLine < b'.startLine) ∧
      (∀ b ∈ split separator t, b.text.isBlankSql = false ∧
        t.slice b.offset (b.offset + size b.text) = b.text ∧
        t.isBoundary b.offset = true ∧ t.isBoundary (b.offset + size b.text) = true ∧
        t.offset? ⟨b.startLine, 1⟩ = some b.offset ∧
        (∀ i, b.startLine ≤ i + 1 → i + 1 ≤ b.endLine → isSeparatorAt separator t i = false) ∧
        (∀ o l c, b.text.isBoundary o = true → b.text.position o = ⟨l, c⟩ →
          t.position (b.offset + o) = ⟨b.startLine + l - 1, c⟩) ∧
        ∃ s : Stretch, s.IsMaximal separator t ∧ b.IsOf s) ∧
      ∀ i, i < t.lineCount → isSeparatorAt separator t i = true ∨
        ∃ s : Stretch, s.IsMaximal separator t ∧ s.HasLine i ∧
          (s.text.isBlankSql = true ∨ ∃ b ∈ split separator t, b.IsOf s) := by
  refine ⟨split_pairwise separator t, fun b hb => ?_, fun i hi => ?_⟩
  · obtain ⟨⟨before, after, ht, hoffset, -⟩, hcode⟩ := standsIn_of_mem_split hb
    have hend : b.offset + size b.text = size (terminated before ++ b.text) := by
      rw [hoffset, size_append]
    obtain ⟨hslice, hfirst, hlast⟩ := slice_isBoundary_of_eq ht hoffset hend
    obtain ⟨s, hs, -, hof⟩ := exists_isMaximal_of_mem_split hb
    exact ⟨hcode, hslice, hfirst, hlast, offset?_startLine hb,
      fun i => isSeparatorAt_of_mem_split hb, fun o l c => position_of_mem_split hb, s, hs, hof⟩
  · obtain ⟨line, masked, hget⟩ := exists_masked_of_lt hi
    rw [isSeparatorAt_of_getElem? hget]
    by_cases hsep : isSeparatorLine separator masked = true
    · exact Or.inl hsep
    · obtain ⟨s, hs, hhas⟩ :=
        (exists_hasLine_iff (s := ⟨[], []⟩) hget).mpr (Bool.eq_false_iff.mpr hsep)
      refine Or.inr ⟨s, isMaximal_of_mem_stretches hs, ?_, isBlankSql_or_exists_batch hs⟩
      simpa using hhas

end Batch

end SqlInsight
