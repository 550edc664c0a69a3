/-
The findings in two texts joined by a separator line. The findings in a batch depend on nothing but
its text and the line it starts on, and their lines are lines of the batch; so the findings in the
first text come first, and those in the second one follow as many lines further down as the first
text and the separator line have.
-/
import SqlInsight.Proofs.Span.Joined
import SqlInsight.Validation

namespace SqlInsight

open Text

theorem append_inj_of_forall {α : Type} {p : α → Prop} {a b a' b' : List α}
    (h : a ++ b = a' ++ b') (ha : ∀ x ∈ a, p x) (ha' : ∀ x ∈ a', p x) (hb : ∀ x ∈ b, ¬ p x)
    (hb' : ∀ x ∈ b', ¬ p x) : a = a' ∧ b = b' := by
  rcases List.append_eq_append_iff.mp h with ⟨m, rfl, hm⟩ | ⟨m, rfl, hm⟩
  · cases m with
    | nil => exact ⟨by simp, by simpa using hm⟩
    | cons x more =>
        exact absurd (ha' x (by simp)) (hb x (by simp [hm]))
  · cases m with
    | nil => exact ⟨by simp, by simpa using hm.symm⟩
    | cons x more =>
        exact absurd (ha x (by simp)) (hb' x (by simp [hm]))

section

variable {α : Type} {le : α → α → Bool}
  (htrans : ∀ x y z, le x y = true → le y z = true → le x z = true)
  (htotal : ∀ x y, (le x y || le y x) = true)

include htrans htotal

/-- A stable sort puts a first item behind those it does not come before. -/
theorem exists_mergeSort_cons (x : α) (rest : List α) :
    ∃ low high, (x :: rest).mergeSort le = low ++ x :: high ∧
      rest.mergeSort le = low ++ high ∧
      (∀ y ∈ low, le x y = false) ∧ ∀ y ∈ high, le x y = true := by
  obtain ⟨low, high, hsort, hrest, hlow⟩ := List.mergeSort_cons htrans htotal x rest
  have hsorted := List.pairwise_mergeSort htrans htotal (x :: rest)
  rw [hsort] at hsorted
  have hhigh := (List.pairwise_cons.mp (List.pairwise_append.mp hsorted).2.1).1
  exact ⟨low, high, hsort, hrest, fun y hy => by simpa using hlow y hy, hhigh⟩

theorem mergeSort_cons_of_append {x : α} {rest low high : List α}
    (hrest : rest.mergeSort le = low ++ high) (hlow : ∀ y ∈ low, le x y = false)
    (hhigh : ∀ y ∈ high, le x y = true) : (x :: rest).mergeSort le = low ++ x :: high := by
  obtain ⟨low', high', hsort, hrest', hlow', hhigh'⟩ :=
    exists_mergeSort_cons htrans htotal x rest
  obtain ⟨rfl, rfl⟩ := append_inj_of_forall (p := fun y => le x y = false)
    (hrest.symm.trans hrest') hlow hlow' (fun y hy => by simp [hhigh y hy])
    (fun y hy => by simp [hhigh' y hy])
  exact hsort

/-- A stable sort keeps two parts apart of which the first comes before the second. -/
theorem mergeSort_append {xs ys : List α} (h : ∀ x ∈ xs, ∀ y ∈ ys, le x y = true) :
    (xs ++ ys).mergeSort le = xs.mergeSort le ++ ys.mergeSort le := by
  induction xs with
  | nil => simp
  | cons x rest ih =>
      obtain ⟨low, high, hsort, hrest, hlow, hhigh⟩ := exists_mergeSort_cons htrans htotal x rest
      have hall : (rest ++ ys).mergeSort le = low ++ (high ++ ys.mergeSort le) := by
        rw [ih fun y hy => h y (List.mem_cons_of_mem x hy), hrest, List.append_assoc]
      have hbehind : ∀ y ∈ high ++ ys.mergeSort le, le x y = true := by
        intro y hy
        rcases List.mem_append.mp hy with hmem | hmem
        · exact hhigh y hmem
        · exact h x List.mem_cons_self y (List.mem_mergeSort.mp hmem)
      rw [List.cons_append, mergeSort_cons_of_append htrans htotal hall hlow hbehind, hsort,
        List.append_assoc, List.cons_append]

/-- A stable sort does not move the items that are kept past one another. -/
theorem filter_mergeSort (p : α → Bool) (xs : List α) :
    (xs.mergeSort le).filter p = (xs.filter p).mergeSort le := by
  induction xs with
  | nil => simp
  | cons x rest ih =>
      obtain ⟨low, high, hsort, hrest, hlow, hhigh⟩ := exists_mergeSort_cons htrans htotal x rest
      rw [hrest, List.filter_append] at ih
      rw [hsort, List.filter_append]
      by_cases hx : p x = true
      · rw [List.filter_cons_of_pos hx, List.filter_cons_of_pos hx]
        symm
        refine mergeSort_cons_of_append htrans htotal ih.symm ?_ ?_
        · exact fun y hy => hlow y (List.mem_filter.mp hy).1
        · exact fun y hy => hhigh y (List.mem_filter.mp hy).1
      · rw [List.filter_cons_of_neg hx, List.filter_cons_of_neg hx]
        exact ih

end

/-- The range that many lines further down. -/
def Range.down (n : Nat) (r : Range) : Range :=
  ⟨r.first.down n, r.last.down n⟩

/-- The finding that many lines further down. -/
def Diagnostic.down (n : Nat) (d : Diagnostic) : Diagnostic :=
  { d with range := d.range.down n }

namespace Diagnostic

/-- The order of findings: that of the positions at which they start. -/
def atOrBefore (x y : Diagnostic) : Bool :=
  x.range.first.atOrBefore y.range.first

theorem atOrBefore_trans (x y z : Diagnostic) (hxy : x.atOrBefore y = true)
    (hyz : y.atOrBefore z = true) : x.atOrBefore z = true := by
  rw [atOrBefore, Position.atOrBefore_iff] at *
  omega

theorem atOrBefore_total (x y : Diagnostic) : (x.atOrBefore y || y.atOrBefore x) = true := by
  rw [Bool.or_eq_true, atOrBefore, atOrBefore, Position.atOrBefore_iff, Position.atOrBefore_iff]
  omega

theorem atOrBefore_down (n : Nat) (x y : Diagnostic) :
    (x.down n).atOrBefore (y.down n) = x.atOrBefore y := by
  rw [Bool.eq_iff_iff, atOrBefore, atOrBefore, Position.atOrBefore_iff, Position.atOrBefore_iff]
  simp [down, Range.down]

end Diagnostic

theorem Range.down_onLine (n line column length : Nat) :
    (Range.onLine line column length).down n = Range.onLine (line + n) column length := rfl

/-- A parser tells no place behind the lines of the text that it refuses. -/
def Parser.RefusesInside (parser : Parser) : Prop :=
  ∀ dialect t failure place, parser dialect t = .error failure →
    failure.place? = some place → place.line ≤ t.lineCount

namespace Validation

theorem diagnostic_down (f : Finding) (range : Range) (n : Nat) :
    f.diagnostic (range.down n) = (f.diagnostic range).down n := by
  unfold Finding.diagnostic
  cases f.suggestion <;> rfl

theorem rangeOf_behind {b : Batch} (hb : 1 ≤ b.startLine) (head : Text) (s : StatementText)
    (spot : Nat × Nat) :
    rangeOf (b.behind head) s spot = (rangeOf b s spot).down (head.count '\n') := by
  rw [rangeOf, rangeOf, Range.down_onLine]
  simp only [Batch.behind]
  congr 1
  omega

theorem place_behind {b : Batch} (hb : 1 ≤ b.startLine) (head : Text) (s : StatementText)
    (marked : List (Anchor × Nat)) (findings : List Finding) :
    place (b.behind head) s marked findings =
      (place b s marked findings).map (Diagnostic.down (head.count '\n')) := by
  induction findings generalizing marked with
  | nil => rfl
  | cons f rest ih =>
      simp only [place, List.map_cons, ih, rangeOf_behind hb, diagnostic_down]

theorem syntaxError_diagnostic_down {line : Nat} (hline : 1 ≤ line) (failure : SyntaxError)
    (t : Text) (n : Nat) :
    failure.diagnostic t (line + n) = (failure.diagnostic t line).down n := by
  have hsum (place : Nat) : line + n + place - 1 = line + place - 1 + n := by omega
  simp only [SyntaxError.diagnostic, Diagnostic.down, Range.down_onLine, hsum]

/-- What stands before a batch only moves the findings in it. -/
theorem batchDiagnostics_behind (e : Engine) (schema : Option Schema) {b : Batch}
    (hb : 1 ≤ b.startLine) (head : Text) :
    batchDiagnostics e schema (b.behind head) =
      (batchDiagnostics e schema b).map (Diagnostic.down (head.count '\n')) := by
  have htext : (b.behind head).text = b.text := rfl
  have hstart : (b.behind head).startLine = b.startLine + head.count '\n' := rfl
  rw [batchDiagnostics, batchDiagnostics, htext, hstart]
  cases e.ladder.readStrictly b.text with
  | error failure =>
      simp only
      rw [syntaxError_diagnostic_down hb]
      rfl
  | ok reading =>
      cases schema with
      | none => rfl
      | some schema =>
          simp only
          rw [List.map_flatMap]
          congr 1
          funext x
          exact place_behind hb head _ _ _

theorem line_rangeOf (b : Batch) (s : StatementText) (spot : Nat × Nat) :
    (rangeOf b s spot).first.line ≤ b.endLine := by
  have hline := (line_positionFrom ⟨1, 1⟩ (s.first + spot.1) b.text).2
  change b.startLine + (b.text.position (s.first + spot.1)).line - 1 ≤ _
  rw [Batch.endLine, position]
  simp only at hline
  omega

theorem range_diagnostic (f : Finding) (range : Range) : (f.diagnostic range).range = range := by
  unfold Finding.diagnostic
  cases f.suggestion <;> rfl

theorem line_of_mem_place {b : Batch} {s : StatementText} {marked : List (Anchor × Nat)}
    {findings : List Finding} {d : Diagnostic} (h : d ∈ place b s marked findings) :
    d.range.first.line ≤ b.endLine := by
  induction findings generalizing marked with
  | nil => simp [place] at h
  | cons f rest ih =>
      rcases List.mem_cons.mp h with rfl | hrest
      · rw [range_diagnostic]
        exact line_rangeOf b s _
      · exact ih hrest

/-- A text that cannot be read is refused as it was written. -/
theorem parser_of_readStrictly {l : Ladder} {t : Text} {failure : SyntaxError}
    (h : l.readStrictly t = .error failure) : l.parser l.primary t = .error failure := by
  unfold Ladder.readStrictly at h
  split at h
  · contradiction
  · split at h
    · contradiction
    · rename_i hparser
      obtain rfl := Except.error.inj h
      exact hparser

/-- No finding in a batch lies behind its last line. -/
theorem line_of_mem_batchDiagnostics {e : Engine} (hparser : e.parser.RefusesInside)
    {schema : Option Schema} {b : Batch} {d : Diagnostic} (h : d ∈ batchDiagnostics e schema b) :
    d.range.first.line ≤ b.endLine := by
  rw [batchDiagnostics] at h
  split at h
  · rename_i failure hread
    obtain rfl := List.mem_singleton.mp h
    have hrefused := parser_of_readStrictly hread
    have hplace : (failure.place?.getD ⟨1, 1⟩).line ≤ b.text.count '\n' + 1 := by
      cases hfound : failure.place? with
      | none => exact Nat.le_add_left _ _
      | some place =>
          rw [Option.getD_some, ← length_lines]
          exact hparser _ _ _ _ hrefused hfound
    change b.startLine + (failure.place?.getD ⟨1, 1⟩).line - 1 ≤ _
    rw [Batch.endLine]
    omega
  · split at h
    · contradiction
    · obtain ⟨x, -, hx⟩ := List.mem_flatMap.mp h
      exact line_of_mem_place hx

theorem validate_eq_mergeSort (e : Engine) (schema : Option Schema) (t : Text) :
    validate e schema t = (found e schema t).mergeSort Diagnostic.atOrBefore := rfl

theorem line_of_mem_found {e : Engine} (hparser : e.parser.RefusesInside) {schema : Option Schema}
    {t : Text} {d : Diagnostic} (h : d ∈ found e schema t) :
    d.range.first.line ≤ t.count '\n' + 1 := by
  obtain ⟨b, hb, hd⟩ := List.mem_flatMap.mp h
  obtain ⟨original, horiginal, rfl⟩ := List.mem_map.mp hd
  have hline := line_of_mem_batchDiagnostics hparser horiginal
  obtain ⟨earlier, after, rfl, -, hstart⟩ := (Batch.standsIn_of_mem_split hb).exists_append
  rw [Batch.endLine, hstart] at hline
  change original.range.first.line ≤ _
  rw [List.count_append, List.count_append]
  omega

section

variable {line a : Text} (e : Engine) (schema : Option Schema)
  (hline : IsSeparator e.settings.batchSeparator line)
  (ha : a.endRegion = .code ∨ a.endRegion = .lineComment) (b : Text)

include hline ha

theorem found_append :
    found e schema (a ++ '\n' :: (line ++ '\n' :: b)) =
      found e schema a ++ (found e schema b).map (Diagnostic.down (a.count '\n' + 2)) := by
  have hcount : (a ++ '\n' :: (line ++ ['\n'])).count '\n' = a.count '\n' + 2 := by
    simp [List.count_append, List.count_eq_zero.mpr hline.newline_not_mem]
  rw [found, Batch.split_append hline ha, List.flatMap_append, List.flatMap_map, found, found,
    List.map_flatMap]
  congr 1
  refine List.flatMap_congr fun x hx => ?_
  obtain ⟨earlier, after, -, -, hstart⟩ := (Batch.standsIn_of_mem_split hx).exists_append
  rw [batchDiagnostics_behind e schema (by omega), hcount, List.map_map, List.map_map]
  rfl

/-- The findings in two texts with a separator line between them. -/
theorem validate_append_line (hparser : e.parser.RefusesInside) :
    validate e schema (a ++ '\n' :: (line ++ '\n' :: b)) =
      validate e schema a ++ (validate e schema b).map (Diagnostic.down (a.count '\n' + 2)) := by
  have hbefore : ∀ x ∈ found e schema a,
      ∀ y ∈ (found e schema b).map (Diagnostic.down (a.count '\n' + 2)), x.atOrBefore y = true := by
    intro x hx y hy
    obtain ⟨d, -, rfl⟩ := List.mem_map.mp hy
    have hfirst := line_of_mem_found hparser hx
    rw [Diagnostic.atOrBefore, Position.atOrBefore_iff]
    refine Or.inl ?_
    change x.range.first.line < d.range.first.line + (a.count '\n' + 2)
    omega
  rw [validate_eq_mergeSort, validate_eq_mergeSort, validate_eq_mergeSort,
    found_append e schema hline ha,
    mergeSort_append Diagnostic.atOrBefore_trans Diagnostic.atOrBefore_total hbefore,
    List.map_mergeSort (s := Diagnostic.atOrBefore) fun x _ y _ =>
      (Diagnostic.atOrBefore_down (a.count '\n' + 2) x y).symm]

end

theorem isSeparator_go : IsSeparator "GO".toList "GO".toList :=
  ⟨by decide, Or.inl (by decide), by decide⟩

/-- Batches are independent. A separator line after a text that ends in code or in a line comment
parts its findings and its spans from those of what follows: neither text adds, removes or moves one
of the other, and those of the second text lie as many lines further down as stand before it. -/
theorem batches_independent {e : Engine} (hseparator : e.settings.batchSeparator = "GO".toList)
    (hparser : e.parser.RefusesInside) (schema : Option Schema) {a : Text}
    (ha : a.endRegion = .code ∨ a.endRegion = .lineComment) (b : Text) :
    validate e schema (a ++ "\nGO\n".toList ++ b) =
        validate e schema a ++ (validate e schema b).map (Diagnostic.down (a.count '\n' + 2)) ∧
      Span.all e (a ++ "\nGO\n".toList ++ b) =
        Span.all e a ++ (Span.all e b).map (Span.down (a.count '\n' + 2)) := by
  have hline : IsSeparator e.settings.batchSeparator "GO".toList := by
    rw [hseparator]
    exact isSeparator_go
  have hjoined : a ++ "\nGO\n".toList ++ b = a ++ '\n' :: ("GO".toList ++ '\n' :: b) := by
    rw [List.append_assoc]
    rfl
  rw [hjoined]
  exact ⟨validate_append_line e schema hline ha b hparser, Span.all_append e hline ha b⟩

/-- An engine whose parser refuses every text at its first word. -/
def refusing : Engine :=
  ⟨fun _ _ => .error (.refused
    "Expected: an SQL statement, found: SELEC at Line: 1, Column: 1".toList), {}⟩

/-- The finding at the first word of a line. -/
def refusal (line : Nat) : Diagnostic :=
  ⟨.syntaxError, .error, "Syntax error: Expected: an SQL statement, found: SELEC".toList,
    Range.onLine line 1 5, none⟩

theorem refusing_refusesInside : refusing.parser.RefusesInside := by
  intro dialect t failure place hrefused hplace
  obtain rfl := Except.error.inj hrefused
  have hfirst : place = ⟨1, 1⟩ := Option.some.inj (hplace.symm.trans (by decide))
  rw [hfirst, lineCount, length_lines]
  exact Nat.le_add_left _ _

/-- Two batches that are refused, the first of which ends in a line comment. -/
theorem batches_independent_refused :
    validate refusing none ("SELEC 1 -- all".toList ++ "\nGO\n".toList ++ "SELEC 2;".toList) =
        [refusal 1, refusal 3] ∧
      Span.all refusing ("SELEC 1 -- all".toList ++ "\nGO\n".toList ++ "SELEC 2;".toList) =
        [⟨"SELEC 1 -- all".toList, ⟨1, 1⟩, ⟨1, 15⟩, 0⟩,
          ⟨"SELEC 2".toList, ⟨3, 1⟩, ⟨3, 8⟩, 0⟩] := by
  obtain ⟨hvalidate, hspans⟩ := batches_independent (e := refusing) rfl refusing_refusesInside none
    (a := "SELEC 1 -- all".toList) (Or.inr (by decide)) "SELEC 2;".toList
  have hfirst : found refusing none "SELEC 1 -- all".toList = [refusal 1] := by decide +kernel
  have hsecond : found refusing none "SELEC 2;".toList = [refusal 1] := by decide +kernel
  rw [validate_eq_mergeSort _ _ "SELEC 1 -- all".toList, hfirst, List.mergeSort_singleton,
    validate_eq_mergeSort _ _ "SELEC 2;".toList, hsecond, List.mergeSort_singleton] at hvalidate
  exact ⟨hvalidate.trans (by decide), hspans.trans (by decide +kernel)⟩

end Validation

end SqlInsight
