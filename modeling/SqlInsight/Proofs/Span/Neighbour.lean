/-
The neighbour of a cursor between statements: the last statement that ends before it, else the first
one. It is looked for among the statements of one batch, the one that the line of the cursor belongs
to. So it is the neighbour in the whole buffer exactly if that batch has it.
-/
import SqlInsight.Proofs.Span.FixedPoint

namespace SqlInsight

open Text

/-- The place that a position has in a buffer cuts it on the line of the position. -/
theorem Text.exists_append_of_offset? {t : Text} {p : Position} {n : Nat}
    (h : t.offset? p = some n) :
    ∃ before after, t = before ++ after ∧ n = size before ∧ before.count '\n' + 1 = p.line := by
  obtain ⟨earlier, line, later, rest, hlines, hline, hcut, rfl⟩ := exists_cut_of_offset? h
  have hfree {l : Text} (hl : l ∈ t.lines) : '\n' ∉ l := newline_not_mem_of_mem_lines hl
  have hown : ((trimReturns line).take (p.column - 1)).count '\n' = 0 := by
    rw [List.count_eq_zero]
    intro hmem
    obtain ⟨returns, htrim, -⟩ := exists_trimReturns line
    apply hfree (l := line)
    · rw [hlines]
      simp
    · rw [htrim]
      exact List.mem_append_left returns (List.mem_of_mem_take hmem)
  have hfreeEarlier : ∀ l ∈ earlier, '\n' ∉ l := fun l hl => hfree (by rw [hlines]; simp [hl])
  refine ⟨_, rest, hcut, rfl, ?_⟩
  rw [List.count_append, hown, count_newline_terminated hfreeEarlier, hline]

namespace Batch

variable {t before after : Text} {b : Batch}

theorem StandsIn.startLine_le (h : b.StandsIn t) (hcut : t = before ++ after)
    (hle : b.offset ≤ size before) : b.startLine ≤ before.count '\n' + 1 := by
  obtain ⟨earlier, later, ht, hoffset, hline⟩ := h.exists_append
  rw [hcut, List.append_assoc] at ht
  obtain ⟨more, rfl, -⟩ := exists_append_of_size_le ht.symm (by omega)
  rw [hline, List.count_append]
  omega

theorem StandsIn.le_endLine (h : b.StandsIn t) (hcut : t = before ++ after)
    (hle : size before ≤ b.offset + size b.text) : before.count '\n' + 1 ≤ b.endLine := by
  obtain ⟨earlier, later, ht, hoffset, hline⟩ := h.exists_append
  rw [hcut] at ht
  obtain ⟨more, hmore, -⟩ := exists_append_of_size_le ht (by rw [size_append]; omega)
  have hcount := congrArg (List.count '\n') hmore
  rw [List.count_append, List.count_append] at hcount
  rw [endLine, hline]
  omega

/-- A batch parses: it can be read, and nothing is read from one that has no pieces. -/
def Parses (e : Engine) (b : Batch) : Prop :=
  ∃ r, e.ladder.readStrictly b.text = .ok r ∧ (Extent.ofBatch b = [] → r.statements = [])

theorem Parses.ofReading?_eq {e : Engine} (h : b.Parses e) :
    Extent.ofReading? e b = some (Extent.ofStatements e b) := by
  obtain ⟨r, hread, hempty⟩ := h
  cases hreading : Extent.ofReading? e b with
  | some xs => rw [Extent.ofStatements, hreading, Option.getD_some]
  | none =>
      rw [Extent.ofReading?, hread] at hreading
      dsimp only at hreading
      split at hreading
      · contradiction
      · rename_i hlength
        have hnil := Extent.ofBatch_eq_nil (Option.map_eq_none_iff.mp hreading)
        rw [hnil, hempty hnil] at hlength
        contradiction

end Batch

namespace Span

section Neighbour

variable {xs before own after : List Extent} {n : Nat}

/-- The last of some extents that ends before an offset, else the first one. -/
def neighbour? (xs : List Extent) (n : Nat) : Option Extent :=
  (xs.reverse.find? fun x => x.last < n).or xs.head?

theorem choose?_of_not_holds (h : ∀ x ∈ xs, x.holds n = false) :
    choose? xs n = neighbour? xs n := by
  have hnone : xs.find? (fun x => x.holds n) = none := by
    rw [List.find?_eq_none]
    intro x hx
    simp [h x hx]
  rw [choose?, hnone, Option.none_or, neighbour?]

/-- The neighbour among the extents of some batches: one of the batch in the middle that ends before
the offset, else the last one of the batches above, else the first one there is. -/
theorem neighbour?_append (hbefore : ∀ x ∈ before, x.last < n) (hafter : ∀ x ∈ after, n ≤ x.last) :
    neighbour? (before ++ own ++ after) n =
      (own.reverse.find? fun x => x.last < n).or
        (before.getLast?.or (own ++ after).head?) := by
  have hnone : (after.reverse.find? fun x => decide (x.last < n)) = none := by
    rw [List.find?_eq_none]
    intro x hx
    have hle := hafter x (List.mem_reverse.mp hx)
    simp only [decide_eq_true_eq]
    omega
  have hlast : (before.reverse.find? fun x => decide (x.last < n)) = before.getLast? := by
    cases hreverse : before.reverse with
    | nil =>
        obtain rfl := List.reverse_eq_nil_iff.mp hreverse
        rfl
    | cons y rest =>
        have hy : y ∈ before := List.mem_reverse.mp (by rw [hreverse]; exact List.mem_cons_self)
        rw [List.find?_cons_of_pos (by simp [hbefore y hy]), List.getLast?_eq_head?_reverse,
          hreverse, List.head?_cons]
  rw [neighbour?, List.reverse_append, List.reverse_append, List.find?_append, hnone,
    Option.none_or, List.find?_append, hlast, Option.or_assoc]
  rcases List.eq_nil_or_concat before with rfl | ⟨init, z, rfl⟩
  · simp
  · simp

/-- The batch in the middle has the neighbour exactly if it has an extent before the offset, or one
behind it when there is none before it in any batch, or there are no extents at all. -/
theorem map_neighbour?_eq_iff {α : Type} {f : Extent → α} (hbefore : ∀ x ∈ before, x.last < n)
    (hafter : ∀ x ∈ after, n < x.first) (hown : ∀ x ∈ own, x.holds n = false)
    (hle : ∀ x ∈ before ++ own ++ after, x.first ≤ x.last)
    (hf : ∀ x ∈ before, ∀ y ∈ own, f y ≠ f x) :
    (neighbour? own n).map f = (neighbour? (before ++ own ++ after) n).map f ↔
      (∃ x ∈ own, x.last < n) ∨
        (own ≠ [] ∧ ∀ x ∈ before ++ own ++ after, n < x.first) ∨ before ++ own ++ after = [] := by
  have hbehind : ∀ x ∈ after, n ≤ x.last := by
    intro x hx
    have hlt := hafter x hx
    have hxle := hle x (List.mem_append_right _ hx)
    omega
  rw [neighbour?_append hbefore hbehind, neighbour?]
  cases hfound : own.reverse.find? (fun x => decide (x.last < n)) with
  | some z =>
      have hz := List.find?_some hfound
      have hmem := List.mem_reverse.mp (List.mem_of_find?_eq_some hfound)
      simp only [Option.some_or, true_iff]
      exact Or.inl ⟨z, hmem, by simpa using hz⟩
  | none =>
      have hnone : ∀ x ∈ own, n < x.first := by
        intro x hx
        have hlast := List.find?_eq_none.mp hfound x (List.mem_reverse.mpr hx)
        have hholds := hown x hx
        simp only [decide_eq_true_eq, Extent.holds, Bool.and_eq_false_iff,
          decide_eq_false_iff_not] at hlast hholds
        omega
      have hnot : ¬ ∃ x ∈ own, x.last < n := by
        rintro ⟨x, hx, hlt⟩
        have hlow := hnone x hx
        have hxle := hle x (List.mem_append_left _ (List.mem_append_right _ hx))
        omega
      simp only [Option.none_or, hnot, false_or]
      rcases List.eq_nil_or_concat before with rfl | ⟨init, z, rfl⟩
      · rw [List.getLast?_nil, Option.none_or, List.nil_append]
        cases own with
        | nil => cases after <;> simp
        | cons y rest =>
            simp only [List.cons_append, List.head?_cons, ne_eq, reduceCtorEq, not_false_eq_true,
              true_and, or_false, true_iff]
            intro x hx
            rw [← List.cons_append] at hx
            exact (List.mem_append.mp hx).elim (hnone x) (hafter x)
      · have hzlast := hbefore z (by simp)
        have hzle := hle z (by simp)
        simp only [List.concat_eq_append, List.getLast?_concat, Option.some_or, Option.map_some]
        constructor
        · intro hsame
          obtain ⟨y, hy, hyz⟩ := Option.map_eq_some_iff.mp hsame
          exact absurd hyz (hf z (by simp) y (List.mem_of_head? hy))
        · rintro (⟨-, hall⟩ | hempty)
          · have hlt := hall z (by simp)
            omega
          · simp at hempty

end Neighbour

section Batches

variable {separator t : Text} {b : Batch} {line : Nat}

/-- The batches above the one of a line end above the line, and those below start below it. -/
theorem exists_append_of_batchAt? (h : batchAt? t (Batch.split separator t) line = some b) :
    ∃ above below, Batch.split separator t = above ++ b :: below ∧
      (∀ b' ∈ above, b'.endLine < line) ∧ ∀ b' ∈ below, line < b'.startLine := by
  have hpairwise := Batch.split_pairwise separator t
  have hends {above below : List Batch} (hcut : Batch.split separator t = above ++ b :: below)
      (hstart : b.startLine ≤ line) : ∀ b' ∈ above, b'.endLine < line := by
    intro b' hb'
    rw [hcut] at hpairwise
    have hapart := ((List.pairwise_append.mp hpairwise).2.2 b' hb' b List.mem_cons_self).2
    omega
  simp only [batchAt?, Option.or_eq_some_iff] at h
  rcases h with (hcovers | ⟨-, habove⟩) | ⟨hnone, hhead⟩
  · obtain ⟨above, below, hcut⟩ := List.append_of_mem (List.mem_of_find?_eq_some hcovers)
    have hb := List.find?_some hcovers
    rw [(Batch.standsIn_of_mem_split (List.mem_of_find?_eq_some hcovers)).line_last,
      Bool.and_eq_true, decide_eq_true_eq, decide_eq_true_eq] at hb
    refine ⟨above, below, hcut, hends hcut hb.1, fun b' hb' => ?_⟩
    rw [hcut] at hpairwise
    have hapart := (List.pairwise_cons.mp (List.pairwise_append.mp hpairwise).2.1).1 b' hb'
    omega
  · obtain ⟨hb, later, earlier, hreverse, hlater⟩ := List.find?_eq_some_iff_append.mp habove
    have hcut : Batch.split separator t = earlier.reverse ++ b :: later.reverse := by
      rw [← List.reverse_reverse (Batch.split separator t), hreverse]
      simp
    refine ⟨_, _, hcut, hends hcut (by simpa using hb), fun b' hb' => ?_⟩
    simpa using hlater b' (List.mem_reverse.mp hb')
  · obtain ⟨below, hcut⟩ := List.head?_eq_some_iff.mp hhead
    refine ⟨[], below, hcut, by simp, fun b' hb' => ?_⟩
    have hmem : b' ∈ (Batch.split separator t).reverse := by
      rw [hcut]
      simp [hb']
    have hstart := List.find?_eq_none.mp (Option.or_eq_none_iff.mp hnone).2 b' hmem
    simpa using hstart

end Batches

section Between

variable {e : Engine} {t : Text} {p : Position} {n : Nat} {b : Batch}

/-- In a batch that parses, and in which no statement holds the cursor, the neighbour is found. -/
theorem locate?_eq_neighbour? (hparses : b.Parses e) (hn : t.offset? p = some n)
    (hbatch : batchAt? t (Batch.split e.settings.batchSeparator t) p.line = some b)
    (hown : ∀ x ∈ Extent.ofStatements e b, x.holds n = false) :
    locate? e t p = (neighbour? (Extent.ofStatements e b) n).map (Extent.span t) := by
  rw [locate?, hn]
  simp only [Option.bind_eq_bind, Option.bind_some, hbatch, hparses.ofReading?_eq,
    choose?_of_not_holds hown]
  cases neighbour? (Extent.ofStatements e b) n <;> rfl

/-- The statements above and below the batch of a cursor end before it and start behind it. -/
theorem exists_all_eq_append (hn : t.offset? p = some n)
    (hbatch : batchAt? t (Batch.split e.settings.batchSeparator t) p.line = some b) :
    ∃ above below, Extent.all e t = above ++ Extent.ofStatements e b ++ below ∧
      (∀ x ∈ above, x.last < n) ∧ ∀ x ∈ below, n < x.first := by
  obtain ⟨before, after, hcut, rfl, hline⟩ := exists_append_of_offset? hn
  obtain ⟨above, below, hsplit, habove, hbelow⟩ := exists_append_of_batchAt? hbatch
  have hstands {b' : Batch} (hb' : b' ∈ above ++ b :: below) : b'.StandsIn t := by
    rw [← hsplit] at hb'
    exact Batch.standsIn_of_mem_split hb'
  refine ⟨above.flatMap (Extent.ofStatements e), below.flatMap (Extent.ofStatements e), ?_, ?_, ?_⟩
  · rw [Extent.all, hsplit]
    simp
  · intro x hx
    obtain ⟨b', hb', hxb⟩ := List.mem_flatMap.mp hx
    have hbounds := ((Extent.ofStatements_tile e b').standsIn x hxb).bounds
    have hend := habove b' hb'
    by_contra hle
    have hline' := (hstands (List.mem_append_left _ hb')).le_endLine hcut (by omega)
    omega
  · intro x hx
    obtain ⟨b', hb', hxb⟩ := List.mem_flatMap.mp hx
    have hbounds := ((Extent.ofStatements_tile e b').standsIn x hxb).bounds
    have hstart := hbelow b' hb'
    by_contra hle
    have hmem : b' ∈ above ++ b :: below := by simp [hb']
    have hline' := (hstands hmem).startLine_le hcut (by omega)
    omega

/-- Where a cursor that no statement holds is led. A buffer without batches has no statement, and
none is found. In any other the neighbour among the statements of the batch of its line is found:
the last one that ends before the cursor, else the first one, and none only if that batch has none.
That is the neighbour among all statements of the buffer exactly if a statement of the batch ends
before the cursor, or none of the buffer does while the batch has one, or the buffer has none. -/
theorem locate?_between
    (hparses : ∀ b ∈ Batch.split e.settings.batchSeparator t, b.Parses e)
    (hn : t.offset? p = some n) (hout : ∀ x ∈ Extent.all e t, x.holds n = false) :
    (Extent.all e t = [] ∧ locate? e t p = none) ∨
      ∃ b ∈ Batch.split e.settings.batchSeparator t,
        batchAt? t (Batch.split e.settings.batchSeparator t) p.line = some b ∧
        locate? e t p = (neighbour? (Extent.ofStatements e b) n).map (Extent.span t) ∧
        (locate? e t p = (neighbour? (Extent.all e t) n).map (Extent.span t) ↔
          (∃ x ∈ Extent.ofStatements e b, x.last < n) ∨
            (Extent.ofStatements e b ≠ [] ∧ ∀ x ∈ Extent.all e t, n < x.first) ∨
            Extent.all e t = []) := by
  cases hbatch : batchAt? t (Batch.split e.settings.batchSeparator t) p.line with
  | none =>
      have hnil : Batch.split e.settings.batchSeparator t = [] := by
        simp only [batchAt?, Option.or_eq_none_iff] at hbatch
        exact List.head?_eq_none_iff.mp hbatch.2
      refine Or.inl ⟨by rw [Extent.all, hnil]; rfl, ?_⟩
      rw [locate?, hn]
      simp only [Option.bind_eq_bind, Option.bind_some, hbatch, Option.bind_none]
  | some b =>
      have hmem := mem_of_batchAt? hbatch
      have hall {x : Extent} (hx : x ∈ Extent.ofStatements e b) : x ∈ Extent.all e t :=
        List.mem_flatMap.mpr ⟨b, hmem, hx⟩
      have hlocate := locate?_eq_neighbour? (hparses b hmem) hn hbatch fun x hx => hout x (hall hx)
      obtain ⟨above, below, hcut, habove, hbelow⟩ := exists_all_eq_append hn hbatch
      have hle : ∀ x ∈ Extent.all e t, x.first ≤ x.last := fun x hx =>
        Nat.le_of_lt (Extent.standsIn_of_mem_all hx).bounds.2.1
      have hapart : ∀ x ∈ above, ∀ y ∈ Extent.ofStatements e b, y.span t ≠ x.span t := by
        intro x hx y hy hsame
        have hpairwise := Extent.all_pairwise e t
        have hxall : x ∈ Extent.all e t := by
          rw [hcut]
          simp [hx]
        rw [hcut] at hpairwise
        have hlt := (List.pairwise_append.mp (List.pairwise_append.mp hpairwise).1).2.2 x hx y hy
        have hfirst := offset?_first (Extent.standsIn_of_mem_all (hall hy))
        rw [hsame, offset?_first (Extent.standsIn_of_mem_all hxall), Option.some.injEq] at hfirst
        have hxle := hle x hxall
        omega
      refine Or.inr ⟨b, hmem, rfl, hlocate, ?_⟩
      rw [hlocate, hcut]
      rw [hcut] at hle
      exact map_neighbour?_eq_iff habove hbelow (fun x hx => hout x (hall hx)) hle hapart

/-- A parser that reads one query from every text. -/
def oneQuery : Engine :=
  ⟨fun _ _ => .ok [.select (.mk [] [.mk [.value .literal none] [] none [] none] [])], {}⟩

/-- On a blank line behind the statement of a batch the neighbour in the buffer is found. -/
theorem locate?_between_above :
    locate? oneQuery "SELECT 1\n\nGO\nSELECT 2".toList ⟨2, 1⟩ =
      (neighbour? (Extent.all oneQuery "SELECT 1\n\nGO\nSELECT 2".toList) 9).map
        (Extent.span "SELECT 1\n\nGO\nSELECT 2".toList) := by
  have hsplit : Batch.split oneQuery.settings.batchSeparator
      "SELECT 1\n\nGO\nSELECT 2".toList =
        [⟨"SELECT 1".toList, 1, 0⟩, ⟨"SELECT 2".toList, 4, 13⟩] := rfl
  have hall : Extent.all oneQuery "SELECT 1\n\nGO\nSELECT 2".toList =
      [⟨0, 8, 0⟩, ⟨13, 21, 0⟩] := rfl
  have hparses : ∀ b ∈ Batch.split oneQuery.settings.batchSeparator
      "SELECT 1\n\nGO\nSELECT 2".toList, b.Parses oneQuery := by
    rw [hsplit]
    intro b hb
    rcases List.mem_pair.mp hb with rfl | rfl
    · exact ⟨_, rfl, fun h => absurd h (by decide)⟩
    · exact ⟨_, rfl, fun h => absurd h (by decide)⟩
  have hout : ∀ x ∈ Extent.all oneQuery "SELECT 1\n\nGO\nSELECT 2".toList,
      x.holds 9 = false := by
    rw [hall]
    decide
  rcases locate?_between (p := ⟨2, 1⟩) hparses rfl hout with ⟨hnil, -⟩ | ⟨b, -, hb, -, hiff⟩
  · rw [hall] at hnil
    contradiction
  · obtain rfl : (⟨"SELECT 1".toList, 1, 0⟩ : Batch) = b := Option.some.inj hb
    exact hiff.mpr (Or.inl ⟨⟨0, 8, 0⟩, List.mem_singleton.mpr rfl, by decide⟩)

/-- A separator line and a blank line stand between two statements. On the blank line, which belongs
to the batch of the second one, that one is found and not the preceding one. -/
theorem locate?_ne_preceding :
    (∀ b ∈ Batch.split oneQuery.settings.batchSeparator "SELECT 1\nGO\n\nSELECT 2".toList,
        b.Parses oneQuery) ∧
      offset? "SELECT 1\nGO\n\nSELECT 2".toList ⟨3, 1⟩ = some 12 ∧
      (∀ x ∈ Extent.all oneQuery "SELECT 1\nGO\n\nSELECT 2".toList, x.holds 12 = false) ∧
      (neighbour? (Extent.all oneQuery "SELECT 1\nGO\n\nSELECT 2".toList) 12).map
          (Extent.span "SELECT 1\nGO\n\nSELECT 2".toList) =
        some ⟨"SELECT 1".toList, ⟨1, 1⟩, ⟨1, 9⟩, 0⟩ ∧
      locate? oneQuery "SELECT 1\nGO\n\nSELECT 2".toList ⟨3, 1⟩ =
        some ⟨"SELECT 2".toList, ⟨4, 1⟩, ⟨4, 9⟩, 0⟩ := by
  have hsplit : Batch.split oneQuery.settings.batchSeparator
      "SELECT 1\nGO\n\nSELECT 2".toList =
        [⟨"SELECT 1".toList, 1, 0⟩, ⟨"\nSELECT 2".toList, 3, 12⟩] := rfl
  have hall : Extent.all oneQuery "SELECT 1\nGO\n\nSELECT 2".toList =
      [⟨0, 8, 0⟩, ⟨13, 21, 0⟩] := rfl
  refine ⟨?_, rfl, ?_, by rw [hall]; rfl, rfl⟩
  · rw [hsplit]
    intro b hb
    rcases List.mem_pair.mp hb with rfl | rfl
    · exact ⟨_, rfl, fun h => absurd h (by decide)⟩
    · exact ⟨_, rfl, fun h => absurd h (by decide)⟩
  · rw [hall]
    decide

end Between

end Span

end SqlInsight
