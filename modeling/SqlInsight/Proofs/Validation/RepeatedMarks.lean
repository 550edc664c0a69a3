/-
When repeated findings start at different places. The searches for an anchor go through its
occurrences one behind the other, but a preferred way to write it lets them pass over the others.
The findings about it start at different places exactly if no search has to begin anew. That is so
if there are as many occurrences, one behind the other, that no preferred way comes behind; and if
they start at different places, the marked occurrences have no preferred one behind them.
-/
import Mathlib.Data.List.Nodup
import SqlInsight.Proofs.Text.LineIndex
import SqlInsight.Proofs.Validation.Marks
import SqlInsight.Proofs.Validation.Resolution
import SqlInsight.Reading.Standard

namespace SqlInsight

open Text

/-- Different cuts have different positions. -/
theorem Text.position_ne {t : Text} {m n : Nat} (hm : IsCut t m) (hn : IsCut t n) (h : m < n) :
    t.position n ≠ t.position m := by
  intro hsame
  have hbefore := position_before hm hn h
  rw [hsame, Position.before_iff] at hbefore
  omega

namespace Validation

/-- The text of a statement stands in its batch where its offset says. -/
theorem exists_append_of_mem {batch : Text} {statements : List Outline.Statement}
    {statement : Outline.Statement} {s : StatementText}
    (h : (statement, s) ∈ statementTexts batch statements) :
    ∃ u v, batch = u ++ s.text ++ v ∧ size u = s.first := by
  obtain ⟨i, hi⟩ := List.mem_iff_getElem?.mp h
  by_cases haligned : (Piece.split batch).length = statements.length
  · obtain ⟨p, hp, rfl⟩ := exists_piece haligned hi
    have hstands := Piece.splitFrom_standsIn (List.mem_of_getElem? hp)
    obtain ⟨u, v, hbatch, hfirst⟩ := hstands.exists_append
    exact ⟨u, v, hbatch, by simp [hfirst]⟩
  · obtain rfl := eq_whole haligned hi
    exact ⟨[], [], by simp, rfl⟩

/-- Ranges that begin at different cuts of the text of a statement start at different positions. -/
theorem first_rangeOf_ne {b : Batch} {s : StatementText} {u v : Text}
    (htext : b.text = u ++ s.text ++ v) (hfirst : size u = s.first) {x y : Nat × Nat}
    (hx : IsCut s.text x.1) (hy : IsCut s.text y.1) (h : x.1 < y.1) :
    (rangeOf b s y).first ≠ (rangeOf b s x).first := by
  have hcut {n : Nat} (hn : IsCut s.text n) : IsCut b.text (s.first + n) := by
    obtain ⟨a, c, hsplit, rfl⟩ := hn
    rw [htext, hsplit, ← hfirst, ← size_append]
    exact ⟨u ++ a, c ++ v, by simp, rfl⟩
  have hline {n : Nat} (hn : IsCut s.text n) : 1 ≤ (b.text.position (s.first + n)).line := by
    obtain ⟨a, c, hsplit, hsize⟩ := hcut hn
    rw [hsize, hsplit, line_position]
    exact Nat.le_add_left 1 _
  have hne := position_ne (hcut hx) (hcut hy) (Nat.add_lt_add_left h s.first)
  intro hsame
  rw [rangeOf, rangeOf, Range.onLine, Range.onLine, Position.mk.injEq] at hsame
  have hlinex := hline hx
  have hliney := hline hy
  have hlines :
      (b.text.position (s.first + y.1)).line = (b.text.position (s.first + x.1)).line := by
    omega
  exact hne (congrArg₂ Position.mk hlines hsame.2)

/-- An occurrence ends before another one starts. -/
def Occurrence.Before (o o' : Occurrence) : Prop :=
  o.offset + o.size ≤ o'.offset

namespace Anchor

/-- No form of the anchor begins with a blank. A form that does can stand inside of a blanked
character, and there the text has no position of its own. -/
def IsPlain (a : Anchor) : Prop :=
  ∀ form ∈ a.forms, form.head?.any CharClass.isBlank = false

instance (a : Anchor) : Decidable a.IsPlain :=
  inferInstanceAs (Decidable (∀ form ∈ a.forms, form.head?.any CharClass.isBlank = false))

variable {a : Anchor} {t : Text} {k : Nat}

theorem Occurs.size_eq {o o' : Occurrence} (h : a.Occurs t o) (h' : a.Occurs t o')
    (hrank : o.rank = o'.rank) : o.size = o'.size := by
  obtain ⟨way, hway, hsize, -⟩ := h
  obtain ⟨way', hway', hsize', -⟩ := h'
  rw [hrank, hway', Option.some.injEq] at hway
  rw [hsize, hsize', hway]

theorem Occurs.isCut {o : Occurrence} (h : a.Occurs t o) (hplain : a.IsPlain) :
    IsCut t o.offset := by
  obtain ⟨form, hform, hne, -, hholds⟩ := h.exists_form
  obtain ⟨c, rest, rfl⟩ := List.exists_cons_of_ne_nil hne
  have hc : CharClass.isBlank c = false := hplain _ hform
  exact hholds.isCut_of_mask hc

/-- A search that finds something goes on behind it. -/
theorem exists_foundFrom_cursor (ha : a ≠ .star) (h : (a.find? t (a.cursor t k)).isSome) :
    ∃ o, a.FoundFrom t (a.cursor t k) o ∧ a.spot t k = (o.offset, o.size) ∧
      a.cursor t (k + 1) = o.offset + o.size := by
  obtain ⟨found, hfound⟩ := Option.isSome_iff_exists.mp h
  obtain ⟨rank, hfirst⟩ := exists_foundFrom ha (isCut_cursor ha t k) hfound
  exact ⟨_, hfirst, spot_of_find? hfound, cursor_of_find? hfound⟩

/-- As long as no search begins anew, the cursor is behind all that was marked. -/
theorem spot_lt_cursor (ha : a ≠ .star) (h : ∀ i < k, (a.find? t (a.cursor t i)).isSome) {j : Nat}
    (hj : j < k) : (a.spot t j).1 < a.cursor t k := by
  induction k with
  | zero => contradiction
  | succ k ih =>
      obtain ⟨o, ⟨hoccurs, hstart, -⟩, hspot, hcursor⟩ :=
        exists_foundFrom_cursor ha (h k (Nat.lt_succ_self k))
      have hsize := hoccurs.size_pos
      rw [hcursor]
      rcases Nat.lt_succ_iff_lt_or_eq.mp hj with hless | rfl
      · have hbefore := ih (fun i hi => h i (Nat.lt_succ_of_lt hi)) hless
        omega
      · rw [hspot]
        omega

theorem spot_lt_spot (ha : a ≠ .star) {count : Nat}
    (h : ∀ i < count, (a.find? t (a.cursor t i)).isSome) {j : Nat} (hj : j < k) (hk : k < count) :
    (a.spot t j).1 < (a.spot t k).1 := by
  obtain ⟨o, ⟨-, hstart, -⟩, hspot, -⟩ := exists_foundFrom_cursor ha (h k hk)
  have hbefore := spot_lt_cursor ha (fun i hi => h i (Nat.lt_trans hi hk)) hj
  rw [hspot]
  exact Nat.lt_of_lt_of_le hbefore hstart

theorem isCut_spot (ha : a ≠ .star) (hplain : a.IsPlain)
    (h : (a.find? t (a.cursor t k)).isSome) : IsCut t (a.spot t k).1 := by
  obtain ⟨o, ⟨hoccurs, -⟩, hspot, -⟩ := exists_foundFrom_cursor ha h
  rw [hspot]
  exact hoccurs.isCut hplain

/-- A search that begins anew ends where the first one did. -/
theorem spot_eq_of_none (h : a.find? t (a.cursor t k) = none) : a.spot t k = a.spot t 0 := by
  have hzero : a.cursor t 0 = 0 := rfl
  rw [spot, spot, h, hzero, Option.none_or, Option.or_self]

/-- If a search begins anew, a place is marked twice. -/
theorem exists_spot_eq {count : Nat} (hcount : 1 < count) (hk : k < count)
    (h : a.find? t (a.cursor t k) = none) : ∃ j < count, 0 < j ∧ a.spot t j = a.spot t 0 := by
  cases k with
  | succ k => exact ⟨k + 1, hk, Nat.succ_pos k, spot_eq_of_none h⟩
  | zero =>
      have hstart : a.find? t 0 = none := h
      have hcursor : a.cursor t 1 = 0 := by
        rw [cursor, h, hstart]
        rfl
      refine ⟨1, hcount, Nat.one_pos, spot_eq_of_none ?_⟩
      rw [hcursor]
      exact hstart

/-- Occurrences one behind the other that no preferred way comes behind are not passed over: each
search stays before the next of them. -/
theorem isSome_of_occurrences (ha : a ≠ .star) {os : List Occurrence}
    (hoccurs : ∀ o ∈ os, a.Occurs t o) (hbefore : os.Pairwise Occurrence.Before)
    (hpreferred : ∀ o ∈ os, ∀ o', a.Occurs t o' → o'.rank < o.rank → o'.Before o)
    (hstart : ∀ o ∈ os, a.cursor t k ≤ o.offset) {j : Nat} (hj : j < os.length) :
    (a.find? t (a.cursor t (k + j))).isSome := by
  induction os generalizing k j with
  | nil => contradiction
  | cons o rest ih =>
      obtain ⟨hfirst, hrest⟩ := List.pairwise_cons.mp hbefore
      have ho := hoccurs o List.mem_cons_self
      have hle := hstart o List.mem_cons_self
      have hsome : (a.find? t (a.cursor t k)).isSome := by
        rw [Option.isSome_iff_ne_none]
        intro hnone
        have hlt := (find?_eq_none_iff ha (isCut_cursor ha t k)).mp hnone o ho
        omega
      cases j with
      | zero => exact hsome
      | succ j =>
          obtain ⟨o', ⟨hoccurs', hstart', hbest⟩, -, hcursor⟩ := exists_foundFrom_cursor ha hsome
          have hend : o'.offset + o'.size ≤ o.offset + o.size := by
            rcases hbest o ho hle with hless | ⟨hsame, hleft⟩
            · have hends : o'.offset + o'.size ≤ o.offset :=
                hpreferred o List.mem_cons_self o' hoccurs' hless
              omega
            · have hsize := hoccurs'.size_eq ho hsame
              omega
          have hnext : ∀ x ∈ rest, a.cursor t (k + 1) ≤ x.offset := by
            intro x hx
            rw [hcursor]
            exact Nat.le_trans hend (hfirst x hx)
          have htail := ih (fun x hx => hoccurs x (List.mem_cons_of_mem o hx)) hrest
            (fun x hx => hpreferred x (List.mem_cons_of_mem o hx)) hnext
            (Nat.lt_of_succ_lt_succ hj)
          rwa [Nat.add_right_comm] at htail

/-- If no search begins anew, there are occurrences one behind the other with no preferred one
behind them: those that are found. -/
theorem exists_occurrences (ha : a ≠ .star) (h : ∀ i < k, (a.find? t (a.cursor t i)).isSome) :
    ∃ os : List Occurrence, os.length = k ∧ os.Pairwise Occurrence.Before ∧
      ∀ o ∈ os, o.offset + o.size ≤ a.cursor t k ∧ a.Occurs t o ∧
        ∀ o', a.Occurs t o' → o'.rank < o.rank → o'.offset < o.offset := by
  induction k with
  | zero => exact ⟨[], rfl, .nil, fun o ho => absurd ho List.not_mem_nil⟩
  | succ k ih =>
      obtain ⟨os, hlength, hpairwise, hall⟩ := ih fun i hi => h i (Nat.lt_succ_of_lt hi)
      obtain ⟨o, ⟨hoccurs, hstart, hbest⟩, -, hcursor⟩ :=
        exists_foundFrom_cursor ha (h k (Nat.lt_succ_self k))
      refine ⟨os ++ [o], by simp [hlength], ?_, ?_⟩
      · apply List.pairwise_append.mpr
        refine ⟨hpairwise, List.pairwise_singleton _ o, ?_⟩
        intro x hx y hy
        rw [List.mem_singleton.mp hy]
        exact Nat.le_trans (hall x hx).1 hstart
      · intro x hx
        rcases List.mem_append.mp hx with hmem | hlast
        · obtain ⟨hend, hx'⟩ := hall x hmem
          have hsize := hoccurs.size_pos
          refine ⟨?_, hx'⟩
          omega
        · rw [List.mem_singleton.mp hlast, hcursor]
          refine ⟨Nat.le_refl _, hoccurs, ?_⟩
          intro o' ho' hless
          by_contra hbehind
          have hchoice := hbest o' ho' (by omega)
          omega

end Anchor

/-- Where an anchor starts the first times that it is marked. -/
def startsOf (b : Batch) (s : StatementText) (a : Anchor) (count : Nat) : List Position :=
  (List.range count).map fun k => (rangeOf b s (a.spot s.text k)).first

section

variable {b : Batch} {s : StatementText} {a : Anchor} {count : Nat}

theorem map_first_rangesOf (b : Batch) (s : StatementText) (findings : List Finding) (a : Anchor) :
    (rangesOf b s findings a).map Range.first = startsOf b s a (countOf a findings) := by
  rw [rangesOf_eq, List.map_map]
  rfl

theorem length_startsOf (b : Batch) (s : StatementText) (a : Anchor) (count : Nat) :
    (startsOf b s a count).length = count := by
  rw [startsOf, List.length_map, List.length_range]

/-- As long as no search begins anew, an anchor starts elsewhere each time. -/
theorem nodup_startsOf {u v : Text} (htext : b.text = u ++ s.text ++ v) (hfirst : size u = s.first)
    (ha : a ≠ .star) (hplain : a.IsPlain)
    (hall : ∀ k < count, (a.find? s.text (a.cursor s.text k)).isSome) :
    (startsOf b s a count).Nodup := by
  have hne {j k : Nat} (hj : j < k) (hk : k < count) :
      (rangeOf b s (a.spot s.text k)).first ≠ (rangeOf b s (a.spot s.text j)).first :=
    first_rangeOf_ne htext hfirst (Anchor.isCut_spot ha hplain (hall j (Nat.lt_trans hj hk)))
      (Anchor.isCut_spot ha hplain (hall k hk)) (Anchor.spot_lt_spot ha hall hj hk)
  refine List.Nodup.map_on ?_ List.nodup_range
  intro j hj k hk hsame
  rw [List.mem_range] at hj hk
  rcases Nat.lt_trichotomy j k with hless | heq | hmore
  · exact absurd hsame.symm (hne hless hk)
  · exact heq
  · exact absurd hsame (hne hmore hj)

/-- If an anchor starts elsewhere each time, it is marked once at most or no search begins anew. -/
theorem isSome_of_nodup_startsOf (h : (startsOf b s a count).Nodup) :
    count ≤ 1 ∨ ∀ k < count, (a.find? s.text (a.cursor s.text k)).isSome := by
  by_cases hcount : count ≤ 1
  · exact Or.inl hcount
  · right
    intro k hk
    rw [Option.isSome_iff_ne_none]
    intro hnone
    have hmany : 1 < count := Nat.lt_of_not_le hcount
    obtain ⟨j, hj, hpos, hsame⟩ := Anchor.exists_spot_eq hmany hk hnone
    have hzero : 0 ∈ List.range count := List.mem_range.mpr (Nat.lt_trans Nat.one_pos hmany)
    have hequal := List.inj_on_of_nodup_map h (List.mem_range.mpr hj) hzero (by rw [hsame])
    omega

theorem nodup_startsOf_of_le_one (h : count ≤ 1) : (startsOf b s a count).Nodup := by
  refine List.Nodup.map_on ?_ List.nodup_range
  intro j hj k hk _
  rw [List.mem_range] at hj hk
  omega

end

/-- The starts of the findings about an anchor, for a statement whose text stands in its batch. They
are pairwise different exactly if there is one finding at most or no search has to begin anew. They
are if there are at least as many occurrences of the anchor, one behind the other, each of them
behind all occurrences that are preferred to it; and if they are, there is one finding at most or
there are as many occurrences, one behind the other, with no preferred one starting behind any of
them. -/
theorem starts_nodup_iff {b : Batch} {statements : List Outline.Statement}
    {statement : Outline.Statement} {s : StatementText}
    (hs : (statement, s) ∈ statementTexts b.text statements) {a : Anchor} (ha : a ≠ .star)
    (hplain : a.IsPlain) (findings : List Finding) :
    let starts := (rangesOf b s findings a).map Range.first
    (starts.Nodup ↔ starts.length ≤ 1 ∨
        ∀ k < starts.length, (a.find? s.text (a.cursor s.text k)).isSome) ∧
      ((∃ os : List Occurrence, starts.length ≤ os.length ∧ os.Pairwise Occurrence.Before ∧
          ∀ o ∈ os, a.Occurs s.text o ∧
            ∀ o', a.Occurs s.text o' → o'.rank < o.rank → o'.Before o) → starts.Nodup) ∧
      (starts.Nodup → starts.length ≤ 1 ∨
        ∃ os : List Occurrence, os.length = starts.length ∧ os.Pairwise Occurrence.Before ∧
          ∀ o ∈ os, a.Occurs s.text o ∧
            ∀ o', a.Occurs s.text o' → o'.rank < o.rank → o'.offset < o.offset) := by
  obtain ⟨u, v, htext, hfirst⟩ := exists_append_of_mem hs
  intro starts
  have hstarts : starts = startsOf b s a (countOf a findings) := map_first_rangesOf b s findings a
  have hlength : starts.length = countOf a findings := by rw [hstarts, length_startsOf]
  rw [hlength, hstarts]
  refine ⟨⟨isSome_of_nodup_startsOf, ?_⟩, ?_, ?_⟩
  · rintro (hone | hall)
    · exact nodup_startsOf_of_le_one hone
    · exact nodup_startsOf htext hfirst ha hplain hall
  · rintro ⟨os, hmany, hpairwise, hall⟩
    apply nodup_startsOf htext hfirst ha hplain
    intro k hk
    have hsome := Anchor.isSome_of_occurrences ha (k := 0) (fun o ho => (hall o ho).1) hpairwise
      (fun o ho => (hall o ho).2) (fun o _ => Nat.zero_le o.offset) (Nat.lt_of_lt_of_le hk hmany)
    rwa [Nat.zero_add] at hsome
  · intro hdifferent
    rcases isSome_of_nodup_startsOf hdifferent with hone | hall
    · exact Or.inl hone
    · obtain ⟨os, hlengths, hpairwise, hos⟩ := Anchor.exists_occurrences ha hall
      exact Or.inr ⟨os, hlengths, hpairwise, fun o ho => (hos o ho).2⟩

/-- A column that is missing twice and written the same way both times. -/
theorem starts_nodup_bare :
    let e : Engine := ⟨standardParser, {}⟩
    let b : Batch := ⟨"SELECT Nope, Nope FROM Users".toList, 1, 0⟩
    let nope : Anchor := .identifier none "Nope".toList
    ∃ r statement s, e.ladder.readStrictly b.text = .ok r ∧
      (statement, s) ∈ statementTexts b.text r.statements ∧ nope ≠ .star ∧ nope.IsPlain ∧
      let findings := statementFindings e.settings plainShop statement s.text
      let starts := (rangesOf b s findings nope).map Range.first
      starts.length = 2 ∧ starts.Nodup := by
  intro e b nope
  have hall : (e.ladder.readStrictly b.text).toOption.map (fun r =>
      (statementTexts b.text r.statements).map fun x => (x.2.text,
        ((rangesOf b x.2 (statementFindings e.settings plainShop x.1 x.2.text)
          nope).map Range.first).length)) = some [(b.text, 2)] := by
    decide +kernel
  cases hread : e.ladder.readStrictly b.text with
  | error f =>
      rw [hread] at hall
      contradiction
  | ok r =>
      rw [hread] at hall
      obtain ⟨⟨statement, s⟩, hsingle, hpair⟩ := List.map_eq_singleton_iff.mp (Option.some.inj hall)
      obtain ⟨htext, hlength⟩ := Prod.mk.inj hpair
      have hs : (statement, s) ∈ statementTexts b.text r.statements := by simp [hsingle]
      have hne : nope ≠ .star := by decide
      have hplain : nope.IsPlain := by decide +kernel
      refine ⟨r, statement, s, rfl, hs, hne, hplain, hlength, ?_⟩
      apply (starts_nodup_iff hs hne hplain _).1.mpr
      right
      rw [hlength, htext]
      decide +kernel

/-- The two findings about a missing column start at the same place if it is written bare first and
in brackets then, though there are as many occurrences of it as findings. -/
theorem starts_equal_behind_preferred :
    let t : Text := "SELECT Nope, [Nope] FROM Users".toList
    let nope : Anchor := .identifier none "Nope".toList
    nope.Occurs t ⟨1, 7, 4⟩ ∧ nope.Occurs t ⟨0, 13, 6⟩ ∧
      (validate ⟨standardParser, {}⟩ (some plainShop) t).map (fun d => (d.message, d.range)) =
        [("Column 'Nope' not found".toList, ⟨⟨1, 14⟩, ⟨1, 20⟩⟩),
          ("Column 'Nope' not found".toList, ⟨⟨1, 14⟩, ⟨1, 20⟩⟩)] := by
  intro t nope
  refine ⟨⟨_, rfl, rfl, "SELECT ".toList, "Nope, [Nope] FROM Users".toList, ?_⟩,
    ⟨_, rfl, rfl, "SELECT Nope, ".toList, "[Nope] FROM Users".toList, ?_⟩, ?_⟩
  · decide +kernel
  · decide +kernel
  · have hsorted : (found ⟨standardParser, {}⟩ (some plainShop) t).Pairwise
        fun x y => x.atOrBefore y = true := by
      decide +kernel
    rw [validate_eq_mergeSort, List.mergeSort_of_pairwise hsorted]
    decide +kernel

end Validation

end SqlInsight
