/-
Where the findings of a check start. A finding is marked within the text of its statement, whatever
its anchor. That text stands in a batch and the batch in the buffer; a position in a batch is the
one in the buffer, but for the lines before the batch. So a finding starts within the extent of its
statement, or within its batch if the extents of the statements are not known.
-/
import SqlInsight.Proofs.Span.Partition
import SqlInsight.Proofs.Text.Search
import SqlInsight.Proofs.Validation.Joined

namespace SqlInsight

open Text

namespace Batch

theorem StandsIn.text_ne_nil {t : Text} {b : Batch} (h : b.StandsIn t) : b.text ≠ [] := by
  intro hnil
  have hblank := h.not_blank
  rw [hnil] at hblank
  exact absurd hblank (by decide)

end Batch

namespace Extent

theorem getElem?_ofPieces (b : Batch) (index : Nat) (pieces : List Piece) (i : Nat) :
    (ofPieces b index pieces)[i]? =
      pieces[i]?.map fun p => ⟨b.offset + p.first, b.offset + p.last, index + i⟩ := by
  induction pieces generalizing index i with
  | nil => rfl
  | cons p rest ih =>
      cases i with
      | zero => rfl
      | succ i =>
          rw [ofPieces, List.getElem?_cons_succ, List.getElem?_cons_succ, ih, Nat.add_right_comm,
            Nat.add_assoc]

theorem length_ofPieces (b : Batch) (index : Nat) (pieces : List Piece) :
    (ofPieces b index pieces).length = pieces.length := by
  induction pieces generalizing index with
  | nil => rfl
  | cons p rest ih => rw [ofPieces, List.length_cons, ih, List.length_cons]

/-- A batch with as many pieces as statements has the extents of its pieces. -/
theorem ofStatements_eq_ofBatch {e : Engine} {b : Batch} {reading : Reading}
    (hread : e.ladder.readStrictly b.text = .ok reading)
    (h : (Piece.split b.text).length = reading.statements.length) :
    ofStatements e b = ofBatch b := by
  have hlength : (ofBatch b).length = reading.statements.length := by
    rw [ofBatch, length_ofPieces, h]
  rw [ofStatements, ofReading?, hread]
  simp only [hlength, ↓reduceIte, Option.getD_some]

end Extent

namespace Validation

/-- An anchor is written within the text. -/
theorem Anchor.lt_size_of_find? {anchor : Anchor} {t : Text} {start : Nat} {spot : Nat × Nat}
    (h : anchor.find? t start = some spot) : spot.1 < size t := by
  cases anchor with
  | identifier qualifier name => exact lt_size_of_locateIdentifierFrom h
  | table schema name =>
      rcases Option.or_eq_some_iff.mp h with hfirst | ⟨-, hsecond⟩
      · exact lt_size_of_locateIdentifierFrom hfirst
      · exact lt_size_of_locateIdentifierFrom hsecond
  | word w =>
      obtain ⟨offset, hword, rfl⟩ := Option.map_eq_some_iff.mp h
      rw [← size_mask .identifiers t]
      exact lt_size_of_findWord hword
  | star =>
      obtain ⟨select, hselect, hstar⟩ := Option.bind_eq_some_iff.mp h
      obtain ⟨offset, hoffset, hspot⟩ := Option.bind_eq_some_iff.mp hstar
      obtain rfl := Option.some.inj hspot
      obtain ⟨a, c, b, hmask, rfl⟩ := exists_of_findWord hselect
      have hlt := Text.lt_size_of_find? hoffset
      rw [hmask, dropBytes_size_append] at hlt
      rw [← size_mask .identifiers t, hmask, size_append]
      exact Nat.add_lt_add_left hlt (size a)

/-- A finding is marked within the text of its statement. -/
theorem mark_lt_size {t : Text} (ht : t ≠ []) (marked : List (Anchor × Nat)) (anchor : Anchor) :
    (mark t marked anchor).1.1 < size t := by
  unfold mark
  split
  · rename_i offset size hfind
    rcases Option.or_eq_some_iff.mp hfind with hnext | ⟨-, hfirst⟩
    · exact Anchor.lt_size_of_find? hnext
    · exact Anchor.lt_size_of_find? hfirst
  · exact size_pos ht

/-- The finding `d` is one in the statement with index `i` of a batch that was read, with the
severity that the settings give it. -/
structure FoundIn (e : Engine) (schema : Option Schema) (b : Batch) (reading : Reading) (i : Nat)
    (d : Diagnostic) : Prop where
  read : e.ladder.readStrictly b.text = .ok reading
  placed : ∃ snapshot statement s, schema = some snapshot ∧
    (statementTexts b.text reading.statements)[i]? = some (statement, s) ∧
    d ∈ (place b s [] (statementFindings e.settings snapshot statement s.text)).map
      (relabel e.settings)

/-- The finding `d` starts at the position of an offset of the buffer. If a batch has as many pieces
as statements, the offset lies within the extent of the statement with index `i`, otherwise within
the batch. -/
def StartsInside (e : Engine) (t : Text) (b : Batch) (reading : Reading) (i : Nat)
    (d : Diagnostic) : Prop :=
  ∃ offset, d.range.first = t.position offset ∧
    if (Piece.split b.text).length = reading.statements.length then
      ∃ x, (Extent.ofStatements e b)[i]? = some x ∧ x ∈ Extent.all e t ∧
        x.first ≤ offset ∧ offset < x.last
    else b.offset ≤ offset ∧ offset < b.offset + size b.text

/-- The text of a statement stands in a batch. -/
structure StatementText.StandsIn (b : Batch) (s : StatementText) : Prop where
  ne_nil : s.text ≠ []
  last_le : s.first + size s.text ≤ size b.text

/-- The text of a statement is its piece if there are as many pieces as statements. -/
theorem exists_piece {batch : Text} {statements : List Outline.Statement} {i : Nat}
    {statement : Outline.Statement} {s : StatementText}
    (h : (Piece.split batch).length = statements.length)
    (hs : (statementTexts batch statements)[i]? = some (statement, s)) :
    ∃ p, (Piece.split batch)[i]? = some p ∧ s = ⟨p.text, p.first⟩ := by
  rw [statementTexts, if_pos h, List.getElem?_zip_eq_some, List.getElem?_map] at hs
  obtain ⟨p, hp, rfl⟩ := Option.map_eq_some_iff.mp hs.2
  exact ⟨p, hp, rfl⟩

theorem eq_whole {batch : Text} {statements : List Outline.Statement} {i : Nat}
    {statement : Outline.Statement} {s : StatementText}
    (h : ¬ (Piece.split batch).length = statements.length)
    (hs : (statementTexts batch statements)[i]? = some (statement, s)) : s = ⟨batch, 0⟩ := by
  rw [statementTexts, if_neg h, List.getElem?_map] at hs
  obtain ⟨_, -, hpair⟩ := Option.map_eq_some_iff.mp hs
  exact (Prod.mk.inj hpair).2.symm

section

variable {e : Engine} {schema : Option Schema} {t : Text} {b : Batch}

theorem first_rangeOf (hb : b.StandsIn t) {s : StatementText} {spot : Nat × Nat}
    (h : s.first + spot.1 ≤ size b.text) :
    (rangeOf b s spot).first = t.position (b.offset + (s.first + spot.1)) := by
  obtain ⟨earlier, after, -, -, hline⟩ := hb.exists_append
  rw [hb.position_add h, Position.down, rangeOf, Range.onLine, hline, Position.mk.injEq]
  exact ⟨by omega, rfl⟩

theorem place_cons (b : Batch) (s : StatementText) (marked : List (Anchor × Nat)) (f : Finding)
    (rest : List Finding) :
    place b s marked (f :: rest) = f.diagnostic (rangeOf b s (mark s.text marked f.anchor).1) ::
      place b s (mark s.text marked f.anchor).2 rest := rfl

theorem exists_first_of_mem_place (hb : b.StandsIn t) {s : StatementText} (hs : s.StandsIn b)
    {marked : List (Anchor × Nat)} {findings : List Finding} {d : Diagnostic}
    (h : d ∈ place b s marked findings) :
    ∃ n, n < size s.text ∧ d.range.first = t.position (b.offset + (s.first + n)) := by
  induction findings generalizing marked with
  | nil => simp [place] at h
  | cons f rest ih =>
      rw [place_cons] at h
      rcases List.mem_cons.mp h with rfl | hrest
      · have hlt := mark_lt_size hs.ne_nil marked f.anchor
        have hlast := hs.last_le
        refine ⟨_, hlt, ?_⟩
        rw [range_diagnostic]
        exact first_rangeOf hb (by omega)
      · exact ih hrest

theorem FoundIn.startsInside (hb : b ∈ Batch.split e.settings.batchSeparator t)
    {reading : Reading} {i : Nat} {d : Diagnostic} (h : FoundIn e schema b reading i d) :
    StartsInside e t b reading i d := by
  have hstands := Batch.standsIn_of_mem_split hb
  obtain ⟨snapshot, statement, s, rfl, hs, hd⟩ := h.placed
  obtain ⟨original, horiginal, rfl⟩ := List.mem_map.mp hd
  by_cases haligned : (Piece.split b.text).length = reading.statements.length
  · obtain ⟨p, hp, rfl⟩ := exists_piece haligned hs
    have hpiece := Piece.splitFrom_standsIn (List.mem_of_getElem? hp)
    obtain ⟨n, hn, hfirst⟩ := exists_first_of_mem_place hstands
      ⟨hpiece.ne_nil, by simpa [hpiece.last_eq] using hpiece.last_le⟩ horiginal
    refine ⟨_, hfirst, ?_⟩
    rw [if_pos haligned]
    have hextents := Extent.ofStatements_eq_ofBatch h.read haligned
    have hextent : (Extent.ofStatements e b)[i]? =
        some ⟨b.offset + p.first, b.offset + p.last, 0 + i⟩ := by
      rw [hextents, Extent.ofBatch, Extent.getElem?_ofPieces, hp, Option.map_some]
    refine ⟨_, hextent, ?_, ?_, ?_⟩
    · exact List.mem_flatMap.mpr ⟨b, hb, List.mem_of_getElem? hextent⟩
    · simp only
      omega
    · have hlast := hpiece.last_eq
      simp only at hn ⊢
      omega
  · obtain rfl := eq_whole haligned hs
    obtain ⟨n, hn, hfirst⟩ := exists_first_of_mem_place hstands
      ⟨hstands.text_ne_nil, by simp⟩ horiginal
    refine ⟨_, hfirst, ?_⟩
    rw [if_neg haligned]
    simp only at hn ⊢
    omega

theorem mem_validate {d : Diagnostic} : d ∈ validate e schema t ↔
    ∃ b ∈ Batch.split e.settings.batchSeparator t,
      d ∈ (batchDiagnostics e schema b).map (relabel e.settings) := by
  rw [validate_eq_mergeSort, List.mem_mergeSort, found, List.mem_flatMap]

/-- The findings in a batch that was read are those in its statements. -/
theorem mem_batchDiagnostics_iff {reading : Reading}
    (hread : e.ladder.readStrictly b.text = .ok reading) {d : Diagnostic} :
    d ∈ (batchDiagnostics e schema b).map (relabel e.settings) ↔
      ∃ i, FoundIn e schema b reading i d := by
  rw [batchDiagnostics, hread]
  cases schema with
  | none =>
      simp only [List.map_nil, List.not_mem_nil, false_iff]
      rintro ⟨i, -, snapshot, statement, s, hnone, -⟩
      contradiction
  | some snapshot =>
      simp only
      rw [List.map_flatMap, List.mem_flatMap]
      constructor
      · rintro ⟨⟨statement, s⟩, hs, hd⟩
        obtain ⟨i, hi⟩ := List.mem_iff_getElem?.mp hs
        exact ⟨i, hread, snapshot, statement, s, rfl, hi, hd⟩
      · rintro ⟨i, -, snapshot', statement, s, hsome, hi, hd⟩
        obtain rfl := Option.some.inj hsome
        exact ⟨(statement, s), List.mem_of_getElem? hi, hd⟩

end

/-- Where the findings in a buffer start. They are listed in the order in which they start. Each is
the one about a batch that cannot be read, or it is one in a statement of a batch that was read; and
all of these are listed and start inside their statements. -/
theorem validate_startsInside (e : Engine) (schema : Option Schema) (t : Text) :
    ((validate e schema t).Pairwise fun x y =>
        x.range.first.atOrBefore y.range.first = true) ∧
      (∀ d ∈ validate e schema t, ∃ b ∈ Batch.split e.settings.batchSeparator t,
        (∃ failure, e.ladder.readStrictly b.text = .error failure ∧
          d = relabel e.settings (failure.diagnostic b.text b.startLine)) ∨
        ∃ reading i, FoundIn e schema b reading i d) ∧
      ∀ b ∈ Batch.split e.settings.batchSeparator t, ∀ reading i d,
        FoundIn e schema b reading i d →
          d ∈ validate e schema t ∧ StartsInside e t b reading i d := by
  refine ⟨?_, ?_, ?_⟩
  · rw [validate_eq_mergeSort]
    exact List.pairwise_mergeSort Diagnostic.atOrBefore_trans Diagnostic.atOrBefore_total _
  · intro d hd
    obtain ⟨b, hb, hmem⟩ := mem_validate.mp hd
    refine ⟨b, hb, ?_⟩
    cases hread : e.ladder.readStrictly b.text with
    | error failure =>
        rw [batchDiagnostics, hread] at hmem
        exact Or.inl ⟨failure, rfl, List.mem_singleton.mp hmem⟩
    | ok reading => exact Or.inr ⟨reading, (mem_batchDiagnostics_iff hread).mp hmem⟩
  · intro b hb reading i d hfound
    have hmem := (mem_batchDiagnostics_iff hfound.read).mpr ⟨i, hfound⟩
    exact ⟨mem_validate.mpr ⟨b, hb, hmem⟩, hfound.startsInside hb⟩

end Validation

end SqlInsight
