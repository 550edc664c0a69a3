/-
The statement at a cursor. A cursor in a span has an offset in the extent of the span, and its line
is one of the batch of the span and of no other; so the batch and then the extent are found again.
-/
import SqlInsight.Proofs.Span.Partition
import SqlInsight.Proofs.Text.Positions
import SqlInsight.Span.Locate

namespace SqlInsight

open Text

theorem find?_eq_some_of_unique {α : Type} {p : α → Bool} {xs : List α} {x : α} (hx : x ∈ xs)
    (hp : p x = true) (hunique : ∀ y ∈ xs, p y = true → y = x) : xs.find? p = some x := by
  cases hfind : xs.find? p with
  | none => exact absurd hp (List.find?_eq_none.mp hfind x hx)
  | some y =>
      rw [hunique y (List.mem_of_find?_eq_some hfind) (List.find?_some hfind)]

namespace Batch

/-- The last line of a batch is the line of the place where it ends. -/
theorem StandsIn.line_last {t : Text} {b : Batch} (h : b.StandsIn t) :
    (t.position (b.offset + size b.text)).line = b.endLine := by
  obtain ⟨earlier, after, rfl, hoffset, hline⟩ := h.exists_append
  rw [hoffset, ← size_append, line_position, List.count_append, endLine, hline]
  omega

/-- What stands in a batch lies on the lines of the batch. -/
theorem StandsIn.lines {t : Text} {b : Batch} (h : b.StandsIn t) {before after : Text}
    (hcut : t = before ++ after) (hfirst : b.offset ≤ size before)
    (hlast : size before ≤ b.offset + size b.text) :
    b.startLine ≤ (t.position (size before)).line ∧
      (t.position (size before)).line ≤ b.endLine := by
  obtain ⟨earlier, later, ht, hoffset, hline⟩ := h.exists_append
  subst hcut
  rw [List.append_assoc] at ht
  obtain ⟨lead, rfl, hlead⟩ := exists_append_of_size_le ht.symm (by omega)
  obtain ⟨rest, hrest, -⟩ := exists_append_of_size_le hlead.symm (by
    rw [size_append] at hlast
    omega)
  rw [line_position, List.count_append, endLine, hline, hrest, List.count_append]
  omega

end Batch

namespace Extent

/-- A batch that is not even one statement has no pieces. -/
theorem ofBatch_eq_nil {b : Batch} (h : whole? b = none) : ofBatch b = [] := by
  obtain ⟨lead, tail, htext, hlead, htail, -⟩ := exists_withoutEnd b.text
  have hempty : withoutEnd b.text = [] := by
    by_contra hne
    simp [whole?, hne] at h
  rw [hempty, List.append_nil] at htext
  have hplain : ∀ c ∈ b.text, CharClass.isBlank c = true ∨ c = ';' := by
    rw [htext]
    intro c hc
    exact (List.mem_append.mp hc).elim (hlead c) (htail c)
  rw [ofBatch, Piece.split_eq_splitFrom, Piece.splitFrom_eq_nil hplain]
  rfl

/-- A batch that parses has its statements from what was read, if it has any. -/
theorem ofReading?_eq_some {e : Engine} {b : Batch} {r : Reading}
    (hread : e.ladder.readStrictly b.text = .ok r) {x : Extent} (hx : x ∈ ofStatements e b) :
    ofReading? e b = some (ofStatements e b) := by
  cases hreading : ofReading? e b with
  | some xs => rw [ofStatements, hreading, Option.getD_some]
  | none =>
      rw [ofStatements, hreading, Option.getD_none] at hx
      have hwhole : whole? b = none := by
        rw [ofReading?, hread] at hreading
        simp only at hreading
        split at hreading
        · contradiction
        · exact Option.map_eq_none_iff.mp hreading
      rw [ofBatch_eq_nil hwhole] at hx
      contradiction

end Extent

namespace Span

/-- A line of a batch belongs to that batch. -/
theorem batchAt?_eq_some {separator t : Text} {b : Batch} (hb : b ∈ Batch.split separator t)
    {line : Nat} (hfirst : b.startLine ≤ line) (hlast : line ≤ b.endLine) :
    batchAt? t (Batch.split separator t) line = some b := by
  have hfind : (Batch.split separator t).find? (fun b => b.startLine ≤ line &&
      line ≤ (t.position (b.offset + size b.text)).line) = some b := by
    refine find?_eq_some_of_unique hb ?_ fun b' hb' hcovers => ?_
    · rw [(Batch.standsIn_of_mem_split hb).line_last]
      simp [hfirst, hlast]
    · rw [(Batch.standsIn_of_mem_split hb').line_last] at hcovers
      have hlines := (Batch.split_pairwise separator t).imp fun {b b'} h => h.2
      exact eq_of_pairwise_lt hlines hb' hb (by simpa using hcovers) ⟨hfirst, hlast⟩
  simp only [batchAt?, hfind, Option.some_or]

/-- An offset in an extent belongs to that extent. -/
theorem choose?_eq_some {xs : List Extent} (h : xs.Pairwise fun x y => x.last < y.first)
    {x : Extent} (hx : x ∈ xs) {n : Nat} (hfirst : x.first ≤ n) (hlast : n ≤ x.last) :
    choose? xs n = some x := by
  have hfind : xs.find? (fun x => x.holds n) = some x := by
    refine find?_eq_some_of_unique hx (by simp [Extent.holds, hfirst, hlast]) fun y hy hholds => ?_
    exact eq_of_pairwise_lt h hy hx (by simpa [Extent.holds] using hholds) ⟨hfirst, hlast⟩
  simp only [choose?, hfind, Option.some_or]

theorem contains_iff (s : Span) (p : Position) :
    s.contains p = true ↔ s.first.atOrBefore p = true ∧ p.atOrBefore s.last = true := by
  simp [contains]

/-- The cursor that a span contains has an offset, which lies in the extent of the span. -/
theorem exists_offset?_of_contains {t : Text} {x : Extent} (hx : x.StandsIn t 0) {p : Position}
    (hp : (x.span t).contains p = true) :
    ∃ n, t.offset? p = some n ∧ x.first ≤ n ∧ n ≤ x.last := by
  obtain ⟨before, part, after, rfl, hfirst, hlast, hne, htrim⟩ := hx.exists_append
  obtain ⟨c, more, rfl⟩ := List.exists_cons_of_ne_nil hne
  obtain ⟨hbefore, hafter⟩ := (contains_iff _ p).mp hp
  simp only [Extent.span, hlast, hfirst, Nat.zero_add, ← size_append] at hbefore hafter
  have hline : 1 ≤ p.line := by
    have hle := Position.line_le_of_atOrBefore hbefore
    rw [List.append_assoc, line_position] at hle
    omega
  obtain ⟨n, hn, hle⟩ := exists_offset?_le hline hafter
  have hblank : CharClass.isBlank c = false := trim_head? (c :: more) (by rw [htrim]; rfl)
  rw [List.append_assoc, List.cons_append] at hbefore hn
  have hge := le_offset? hblank hbefore hn
  rw [hfirst, hlast, hfirst, Nat.zero_add, ← size_append]
  exact ⟨n, by simpa using hn, hge, hle⟩

/-- The cursor that the span of a statement contains stands on a line of the batch. -/
theorem line_of_contains {t : Text} {b : Batch} (hb : b.StandsIn t) {x : Extent}
    (hx : x.StandsIn b.text b.offset) {p : Position} (hp : (x.span t).contains p = true) :
    b.startLine ≤ p.line ∧ p.line ≤ b.endLine := by
  obtain ⟨hbefore, hafter⟩ := (contains_iff _ p).mp hp
  have hfirstle := Position.line_le_of_atOrBefore hbefore
  have hlastle := Position.line_le_of_atOrBefore hafter
  obtain ⟨hlow, hne, hhigh⟩ := hx.bounds
  obtain ⟨before, part, after, ht, hfirst, hlast, -⟩ := (hx.of_batch hb).exists_append
  rw [Nat.zero_add] at hfirst
  rw [hfirst, ← size_append] at hlast
  have hfirstline := (hb.lines (ht.trans (List.append_assoc _ _ _)) (by omega) (by omega)).1
  have hlastline := (hb.lines ht (by omega) (by omega)).2
  simp only [Extent.span, hfirst, hlast] at hfirstle hlastle
  omega

/-- In a batch that parses the statement found at a cursor is the one whose span contains it. -/
theorem locate?_of_contains {e : Engine} {t : Text} {b : Batch} {r : Reading} {x : Extent}
    {p : Position} (hb : b ∈ Batch.split e.settings.batchSeparator t)
    (hread : e.ladder.readStrictly b.text = .ok r) (hx : x ∈ Extent.ofStatements e b)
    (hp : (x.span t).contains p = true) : locate? e t p = some (x.span t) := by
  have hstands := ((Extent.ofStatements_tile e b).standsIn x hx).of_batch
    (Batch.standsIn_of_mem_split hb)
  obtain ⟨n, hn, hfirst, hlast⟩ := exists_offset?_of_contains hstands hp
  have hlines := line_of_contains (Batch.standsIn_of_mem_split hb)
    ((Extent.ofStatements_tile e b).standsIn x hx) hp
  have hbatch : batchAt? t (Batch.split e.settings.batchSeparator t) p.line = some b :=
    batchAt?_eq_some hb hlines.1 hlines.2
  have hchoose : choose? (Extent.ofStatements e b) n = some x :=
    choose?_eq_some (Extent.ofStatements_tile e b).pairwise hx hfirst hlast
  rw [locate?, hn]
  simp only [Option.bind_eq_bind, Option.bind_some, hbatch, Extent.ofReading?_eq_some hread hx,
    hchoose]
  rfl

/-- A cursor behind the end of the first line of the second statement is still in it. -/
theorem locate?_behind_line_end :
    locate? ⟨fun _ _ => .ok [.select (.mk [] [.mk [.value .literal none] [] none [] none] [])], {}⟩
        "SELECT 1\nGO\nSELECT\r\n 1;\r\n".toList ⟨3, 40⟩ =
      some ⟨"SELECT\r\n 1".toList, ⟨3, 1⟩, ⟨4, 3⟩, 0⟩ :=
  locate?_of_contains (b := ⟨"SELECT\r\n 1;".toList, 3, 12⟩) (x := ⟨12, 22, 0⟩)
    (List.mem_of_getElem? (i := 1) rfl) rfl (List.mem_of_getElem? (i := 0) rfl) rfl

end Span

end SqlInsight
