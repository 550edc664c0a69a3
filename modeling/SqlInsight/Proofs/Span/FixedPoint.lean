/-
Locating a statement where it starts. The position of its first character has the same offset again,
and lies on a line of the same batch; there the extent that was chosen holds the offset, and the
line scanner finds the statement it found before.
-/
import Mathlib.Data.List.Find
import SqlInsight.Proofs.Batch.Bounds
import SqlInsight.Proofs.Span.Cursor
import SqlInsight.Proofs.Span.Restart

namespace SqlInsight

open Text

namespace Span

variable {separator t : Text}

theorem Together.symm {i j : Nat} (h : Together separator t i j) : Together separator t j i := by
  obtain ⟨a, passage, c, hcut, hunbroken, hi, hj⟩ := h
  exact ⟨a, passage, c, hcut, hunbroken, hj, hi⟩

/-- No line between two lines that lie together is a break. -/
theorem Together.unbroken {i j n : Nat} (h : Together separator t i j) (hi : i ≤ n) (hj : n ≤ j) :
    ∃ l, (maskedLines t)[n]? = some l ∧ l.isBreak separator = false := by
  obtain ⟨a, passage, c, hcut, hunbroken, hbounds, hbounds'⟩ := h
  have hn : n - a.length < passage.length := by omega
  refine ⟨passage[n - a.length], ?_, hunbroken _ (List.getElem_mem hn)⟩
  rw [hcut, List.append_assoc, List.getElem?_append_right (by omega), List.getElem?_append_left hn]
  exact List.getElem?_eq_getElem hn

/-- A batch that has one of two lines that lie together begins above the other and ends below. -/
theorem Together.batch_bounds {i j : Nat} (h : Together separator t i j) {b : Batch}
    (hb : b ∈ Batch.split separator t) :
    (b.startLine ≤ j + 1 → b.startLine ≤ i + 1) ∧ (i + 1 ≤ b.endLine → j + 1 ≤ b.endLine) := by
  constructor
  · intro hstart
    by_contra hlt
    obtain ⟨l, hl, hunbroken⟩ := h.unbroken (n := b.startLine - 2) (by omega) (by omega)
    rw [Batch.isBreak_above hb (by omega) hl] at hunbroken
    contradiction
  · intro hend
    by_contra hlt
    obtain ⟨l, hl, hunbroken⟩ := h.unbroken (n := b.endLine) (by omega) (by omega)
    rw [Batch.isBreak_below hb hl] at hunbroken
    contradiction

/-- Lines that lie together belong to the same batch. -/
theorem batchAt?_eq_of_together {i j : Nat} (h : Together separator t i j) :
    batchAt? t (Batch.split separator t) (i + 1) =
      batchAt? t (Batch.split separator t) (j + 1) := by
  have hstart : ∀ b ∈ Batch.split separator t,
      decide (b.startLine ≤ i + 1) = decide (b.startLine ≤ j + 1) := by
    intro b hb
    rw [decide_eq_decide]
    exact ⟨(h.symm.batch_bounds hb).1, (h.batch_bounds hb).1⟩
  have hend : ∀ b ∈ Batch.split separator t,
      decide (i + 1 ≤ (t.position (b.offset + size b.text)).line) =
        decide (j + 1 ≤ (t.position (b.offset + size b.text)).line) := by
    intro b hb
    rw [decide_eq_decide, (Batch.standsIn_of_mem_split hb).line_last]
    exact ⟨(h.batch_bounds hb).2, (h.symm.batch_bounds hb).2⟩
  simp only [batchAt?]
  congr 2
  · exact List.find?_congr fun b hb => by rw [hstart b hb, hend b hb]
  · exact List.find?_congr fun b hb => hstart b (List.mem_reverse.mp hb)

theorem mem_of_batchAt? {batches : List Batch} {line : Nat} {b : Batch}
    (h : batchAt? t batches line = some b) : b ∈ batches := by
  simp only [batchAt?, Option.or_eq_some_iff] at h
  rcases h with (hcovers | ⟨-, habove⟩) | ⟨-, hhead⟩
  · exact List.mem_of_find?_eq_some hcovers
  · exact List.mem_reverse.mp (List.mem_of_find?_eq_some habove)
  · exact List.mem_of_head? hhead

theorem mem_of_choose? {extents : List Extent} {n : Nat} {x : Extent}
    (h : choose? extents n = some x) : x ∈ extents := by
  simp only [choose?, Option.or_eq_some_iff] at h
  rcases h with (hholds | ⟨-, hbefore⟩) | ⟨-, hhead⟩
  · exact List.mem_of_find?_eq_some hholds
  · exact List.mem_reverse.mp (List.mem_of_find?_eq_some hbefore)
  · exact List.mem_of_head? hhead

/-- The cursor that stands where an extent starts has the offset at which it starts. -/
theorem offset?_first {x : Extent} (hx : x.StandsIn t 0) :
    t.offset? (x.span t).first = some x.first := by
  obtain ⟨a, c, b, ht, hc, hsize⟩ := exists_cons_of_standsIn hx
  simp only [Extent.span, hsize]
  exact offset?_position ht hc

/-- A line scan as it is told by the lines of the buffer. -/
theorem scanLines?_eq_some {number cursor : Nat} {x : Extent}
    (h : scanLines? separator t number cursor = some x) :
    ∃ before line after, maskedLines t = before ++ line :: after ∧ before.length = number - 1 ∧
      extentAround? separator t cursor before.reverse line after = some x := by
  rw [scanLines?] at h
  split at h
  · contradiction
  · rename_i line after hdrop
    refine ⟨(maskedLines t).take (number - 1), line, after, ?_, ?_, h⟩
    · rw [← hdrop, List.take_append_drop]
    · have hlt := congrArg List.length hdrop
      rw [List.length_drop, List.length_cons] at hlt
      rw [List.length_take]
      omega

theorem scanLines?_of_scans {cursor : Nat} {before after : List MaskedLine} {line : MaskedLine}
    {x : Extent} (h : Scans separator t cursor before line after x) :
    scanLines? separator t (before.length + 1) cursor = some x := by
  rw [scanLines?, h.lines_eq, Nat.add_sub_cancel, List.drop_left, List.take_left]
  exact h.found

/-- The line scanner finds a statement again at its first character, in the same batch. -/
theorem scanLines?_first {p : Position} {n : Nat} {x : Extent} (hn : t.offset? p = some n)
    (h : scanLines? separator t p.line n = some x) :
    x.StandsIn t 0 ∧ scanLines? separator t (x.span t).first.line x.first = some x ∧
      batchAt? t (Batch.split separator t) (x.span t).first.line =
        batchAt? t (Batch.split separator t) p.line := by
  obtain ⟨l, hl, hline, hcut, hfirst, hlast⟩ := exists_maskedLine_of_offset? hn
  obtain ⟨before, line, after, hlines, hlength, hfound⟩ := scanLines?_eq_some h
  rw [hlines, ← hlength, List.getElem?_append_right (Nat.le_refl _), Nat.sub_self] at hl
  obtain rfl : line = l := Option.some.inj hl
  have hscans : Scans separator t n before line after x := ⟨hlines, hcut, hfirst, hlast, hfound⟩
  obtain ⟨before', line', after', hscans', hlt, htogether⟩ := hscans.restart
  have hnumber : (x.span t).first.line = before'.length + 1 := by
    obtain ⟨a, c, b, ht, hc, hsize⟩ := exists_cons_of_standsIn hscans.extent_standsIn
    obtain ⟨i, l, hl, hlfirst, hllast, hposition⟩ := exists_maskedLine_of_not_isBlank ht hc
    have hl' : (maskedLines t)[before'.length]? = some line' := by
      rw [hscans'.lines_eq, List.getElem?_append_right (Nat.le_refl _), Nat.sub_self]
      rfl
    have hfirst' := hscans'.first_le
    rw [hsize] at hlt hfirst'
    simp only [Extent.span, hsize, hposition, Nat.add_right_cancel_iff]
    rcases Nat.lt_trichotomy i before'.length with hbefore | heq | hbehind
    · have hapart := last_lt_first hl hl' hbefore
      omega
    · exact heq
    · have hapart := last_lt_first hl' hl hbehind
      omega
  have hline' : p.line = before.length + 1 := by omega
  refine ⟨hscans.extent_standsIn, ?_, ?_⟩
  · rw [hnumber]
    exact scanLines?_of_scans hscans'
  · rw [hnumber, hline']
    exact batchAt?_eq_of_together htogether

/-- The statement that starts at a position is found there, in a batch that can be read. -/
theorem locate?_of_mem {e : Engine} {t : Text} {b : Batch} {extents : List Extent} {x : Extent}
    (hb : b ∈ Batch.split e.settings.batchSeparator t)
    (hreading : Extent.ofReading? e b = some extents) (hx : x ∈ extents) :
    locate? e t (x.span t).first = some (x.span t) := by
  have htile := Extent.ofStatements_tile e b
  rw [Extent.ofStatements, hreading, Option.getD_some] at htile
  have hstands := Batch.standsIn_of_mem_split hb
  have hxb := htile.standsIn x hx
  obtain ⟨hlow, hlt, hhigh⟩ := hxb.bounds
  have hxt := hxb.of_batch hstands
  obtain ⟨a, c, rest, ht, -, hsize⟩ := exists_cons_of_standsIn hxt
  have hlines := hstands.lines ht (by omega) (by omega)
  rw [← hsize] at hlines
  have hbatch := batchAt?_eq_some hb hlines.1 hlines.2
  have hchoose := choose?_eq_some htile.pairwise hx (Nat.le_refl _) (Nat.le_of_lt hlt)
  rw [locate?, offset?_first hxt]
  simp only [Option.bind_eq_bind, Option.bind_some, Extent.span, hbatch, hreading, hchoose]
  rfl

/-- Locating is a fixed point: at the start of the statement that a position belongs to the same
statement is found, in a batch that can be read and in one where the lines decide. -/
theorem locate?_first {e : Engine} {t : Text} {p : Position} {s : Span}
    (h : locate? e t p = some s) : locate? e t s.first = some s := by
  unfold locate? at h
  simp only [Option.bind_eq_bind, Option.bind_eq_some_iff] at h
  obtain ⟨n, hn, b, hb, hfound⟩ := h
  cases hreading : Extent.ofReading? e b with
  | some extents =>
      rw [hreading] at hfound
      obtain ⟨x, hx, hs⟩ := Option.bind_eq_some_iff.mp hfound
      obtain rfl : x.span t = s := Option.some.inj hs
      exact locate?_of_mem (mem_of_batchAt? hb) hreading (mem_of_choose? hx)
  | none =>
      rw [hreading] at hfound
      obtain ⟨x, hx, hs⟩ := Option.bind_eq_some_iff.mp hfound
      obtain rfl : x.span t = s := Option.some.inj hs
      obtain ⟨hxt, hscan, hbatch⟩ := scanLines?_first hn hx
      rw [locate?, offset?_first hxt]
      simp only [Option.bind_eq_bind, Option.bind_some, hbatch, hb, hreading, hscan]
      rfl

/-- Behind the semicolon at the end of a line of a text that no parser accepts, the lines give the
statement that begins on the line below. -/
theorem locate?_first_below :
    locate? ⟨fun _ _ => .error .tooDeep, {}⟩ "SELECT 1; \n + 2".toList ⟨1, 11⟩ =
        some ⟨"+ 2".toList, ⟨2, 2⟩, ⟨2, 5⟩, 0⟩ ∧
      locate? ⟨fun _ _ => .error .tooDeep, {}⟩ "SELECT 1; \n + 2".toList ⟨2, 2⟩ =
        some ⟨"+ 2".toList, ⟨2, 2⟩, ⟨2, 5⟩, 0⟩ := by
  have hbelow : locate? ⟨fun _ _ => .error .tooDeep, {}⟩ "SELECT 1; \n + 2".toList ⟨1, 11⟩ =
      some ⟨"+ 2".toList, ⟨2, 2⟩, ⟨2, 5⟩, 0⟩ := by
    decide +kernel
  exact ⟨hbelow, locate?_first hbelow⟩

end Span

end SqlInsight
