/-
The batches of a buffer as the stretches of its lines between separator lines. Each stretch has the
lines before it; its batch is its text without the line breaks at the end, unless that holds no
code. So batches stand in the buffer in order, on lines of their own, and no code between two
separator lines is lost. Behind a separator line the scan starts afresh, so if one joins two texts,
the lines of the joined text, and its stretches, are those of the first text and then those of the
second one, further down. What a batch holds stays the same.
-/
import SqlInsight.Proofs.Batch.Pieces
import SqlInsight.Proofs.Text.Positions

namespace SqlInsight

open Text

namespace Batch

/-- Consecutive lines of a buffer, none of them a separator line, and all the lines before them. -/
structure Stretch where
  before : List Text
  own : List Text

namespace Stretch

def text (s : Stretch) : Text :=
  List.intercalate ['\n'] s.own

/-- The text of a stretch without the line breaks at its end. -/
def body (s : Stretch) : Text :=
  dropEndWhile (fun c => c == '\n' || c == '\r') s.text

/-- The byte offset at which a stretch starts. -/
def offset (s : Stretch) : Nat :=
  size (terminated s.before)

/-- The lines of a stretch as those of a batch that has not ended. -/
def pending (s : Stretch) : Pending :=
  ⟨s.before.length + 1, s.offset, s.own.reverse⟩

/-- The batch that has not ended at the end of a stretch; none if the stretch has no lines. -/
def pending? (s : Stretch) : Option Pending :=
  if s.own = [] then none else some s.pending

/-- The batch of a stretch, unless it holds no code. -/
def batch? (s : Stretch) : Option Batch :=
  s.pending.close?

end Stretch

/-- The stretches of some lines, each with its masked form, that follow a stretch which has not
ended. -/
def stretchesFrom (separator : Text) (s : Stretch) : List (Text × Text) → List Stretch
  | [] => [s]
  | (line, masked) :: rest =>
      if isSeparatorLine separator masked then
        s :: stretchesFrom separator ⟨s.before ++ s.own ++ [line], []⟩ rest
      else stretchesFrom separator { s with own := s.own ++ [line] } rest

/-- The stretches of a buffer between its separator lines. -/
def stretches (separator t : Text) : List Stretch :=
  stretchesFrom separator ⟨[], []⟩ (t.lines.zip (t.mask .identifiers).lines)

theorem Stretch.bind_close? (s : Stretch) : s.pending?.bind Pending.close? = s.batch? := by
  by_cases hown : s.own = []
  · simp [Stretch.pending?, Stretch.batch?, Stretch.pending, Pending.close?, hown,
      List.intercalate, dropEndWhile, isBlankSql, mask, regions, regionsFrom, isBlank]
  · simp [Stretch.pending?, Stretch.batch?, hown]

theorem Stretch.getD_pending? (s : Stretch) :
    s.pending?.getD
        ⟨s.before.length + s.own.length + 1, size (terminated (s.before ++ s.own)), []⟩ =
      s.pending := by
  by_cases hown : s.own = []
  · simp [Stretch.pending?, Stretch.pending, Stretch.offset, hown]
  · simp [Stretch.pending?, hown]

/-- The batches are those of the stretches. -/
theorem ofLines_eq_filterMap (separator : Text) (s : Stretch) (rest : List (Text × Text)) :
    ofLines separator s.pending? (s.before.length + s.own.length + 1)
        (size (terminated (s.before ++ s.own))) rest =
      (stretchesFrom separator s rest).filterMap Stretch.batch? := by
  induction rest generalizing s with
  | nil =>
      rw [ofLines, stretchesFrom, s.bind_close?]
      cases hbatch : s.batch? <;> simp [hbatch]
  | cons x rest ih =>
      obtain ⟨line, masked⟩ := x
      have hsize : size (terminated (s.before ++ s.own)) + size line + 1 =
          size (terminated (s.before ++ s.own ++ [line])) := by
        simp [size_append, Nat.add_assoc]
      rw [ofLines, stretchesFrom, hsize]
      by_cases hsep : isSeparatorLine separator masked = true
      · have hrest := ih ⟨s.before ++ s.own ++ [line], []⟩
        simp only [Stretch.pending?, List.length_append, List.length_singleton,
          List.append_nil, List.length_nil, Nat.add_zero, ↓reduceIte] at hrest
        simp only [hsep, ↓reduceIte, s.bind_close?, hrest]
        cases hbatch : s.batch? <;> simp [hbatch]
      · have hrest := ih { s with own := s.own ++ [line] }
        have hpending : Stretch.pending? { s with own := s.own ++ [line] } =
            some { s.pending with lines := line :: s.pending.lines } := by
          simp [Stretch.pending?, Stretch.pending, Stretch.offset]
        rw [hpending, List.length_append, List.length_singleton, ← List.append_assoc,
          ← Nat.add_assoc] at hrest
        simp only [hsep, Bool.false_eq_true, ↓reduceIte, s.getD_pending?]
        exact hrest

theorem split_eq_filterMap (separator t : Text) :
    split separator t = (stretches separator t).filterMap Stretch.batch? :=
  ofLines_eq_filterMap separator ⟨[], []⟩ _

theorem map_fst_zip_mask (m : Mask) (t : Text) :
    (t.lines.zip (t.mask m).lines).map Prod.fst = t.lines := by
  apply List.map_fst_zip
  rw [length_lines, length_lines, count_newline_mask]

/-- A stretch goes on where it began, and the lines behind it are still to come. -/
theorem exists_after_of_mem_stretchesFrom {separator : Text} {s s' : Stretch}
    {rest : List (Text × Text)} (h : s' ∈ stretchesFrom separator s rest) :
    (∃ more, s'.before = s.before ++ more) ∧
      ∃ after, s.before ++ s.own ++ rest.map Prod.fst = s'.before ++ s'.own ++ after := by
  induction rest generalizing s with
  | nil =>
      obtain rfl := List.mem_singleton.mp h
      exact ⟨⟨[], by simp⟩, [], by simp⟩
  | cons x rest ih =>
      obtain ⟨line, masked⟩ := x
      rw [stretchesFrom] at h
      split at h
      · rcases List.mem_cons.mp h with rfl | hrest
        · exact ⟨⟨[], by simp⟩, line :: rest.map Prod.fst, by simp⟩
        · obtain ⟨⟨more, hmore⟩, after, hafter⟩ := ih hrest
          exact ⟨⟨s.own ++ [line] ++ more, by simp [hmore]⟩, after, by simpa using hafter⟩
      · obtain ⟨⟨more, hmore⟩, after, hafter⟩ := ih h
        exact ⟨⟨more, hmore⟩, after, by simpa using hafter⟩

/-- A separator line lies between a stretch and the next one. -/
theorem stretchesFrom_pairwise (separator : Text) (s : Stretch) (rest : List (Text × Text)) :
    (stretchesFrom separator s rest).Pairwise fun s s' =>
      ∃ line more, s'.before = s.before ++ s.own ++ line :: more := by
  induction rest generalizing s with
  | nil => simp [stretchesFrom]
  | cons x rest ih =>
      obtain ⟨line, masked⟩ := x
      rw [stretchesFrom]
      split
      · refine List.pairwise_cons.mpr ⟨fun s' hs' => ?_, ih _⟩
        obtain ⟨⟨more, hmore⟩, -⟩ := exists_after_of_mem_stretchesFrom hs'
        exact ⟨line, more, by simpa using hmore⟩
      · exact ih _

theorem exists_lines_of_mem_stretches {separator t : Text} {s : Stretch}
    (h : s ∈ stretches separator t) : ∃ after, t.lines = s.before ++ s.own ++ after := by
  obtain ⟨-, after, hafter⟩ := exists_after_of_mem_stretchesFrom h
  rw [map_fst_zip_mask] at hafter
  exact ⟨after, by simpa using hafter⟩

/-- A stretch with lines stands in the buffer behind the lines before it. -/
theorem eq_append_of_mem_stretches {separator t : Text} {s : Stretch}
    (h : s ∈ stretches separator t) (hown : s.own ≠ []) :
    ∃ after, t = terminated s.before ++ s.text ++ preceded after := by
  obtain ⟨after, hlines⟩ := exists_lines_of_mem_stretches h
  exact ⟨after, eq_of_lines_append hlines hown⟩

/-- A batch stands in a buffer: behind whole lines, whose number and size it knows. -/
structure StandsIn (t : Text) (b : Batch) : Prop where
  exists_append : ∃ earlier after, t = terminated earlier ++ b.text ++ after ∧
    b.offset = size (terminated earlier) ∧
    b.startLine = (terminated earlier).count '\n' + 1
  not_blank : b.text.isBlankSql = false

/-- A position in a batch is as many lines further down in the buffer as stand before the batch. -/
theorem StandsIn.position_add {t : Text} {b : Batch} (h : b.StandsIn t) {n : Nat}
    (hn : n ≤ size b.text) :
    t.position (b.offset + n) = (b.text.position n).down (b.startLine - 1) := by
  obtain ⟨earlier, after, rfl, hoffset, hline⟩ := h.exists_append
  have hstart : Position.after ⟨1, 1⟩ (terminated earlier) =
      Position.down (b.startLine - 1) ⟨1, 1⟩ := by
    rw [hline, Nat.add_sub_cancel]
    rcases List.eq_nil_or_concat earlier with rfl | ⟨init, last, rfl⟩
    · rfl
    · rw [List.concat_eq_append, terminated_append, terminated_cons, terminated_nil,
        ← List.append_assoc, Position.after_newline]
      simp only [Position.down, List.count_append, List.count_singleton_self, Nat.add_assoc]
  rw [position, hoffset, List.append_assoc, positionFrom_size_add, positionFrom_append hn, hstart,
    positionFrom_down]
  rfl

def endLine (b : Batch) : Nat :=
  b.startLine + b.text.count '\n'

theorem Stretch.batch?_eq (s : Stretch) : s.batch? =
    if s.body.isBlankSql then none else some ⟨s.body, s.before.length + 1, s.offset⟩ := by
  simp only [Stretch.batch?, Pending.close?, Stretch.pending, List.reverse_reverse]
  rfl

theorem Stretch.exists_body_append (s : Stretch) :
    ∃ tail, s.text = s.body ++ tail ∧ ∀ c ∈ tail, c = '\n' ∨ c = '\r' := by
  obtain ⟨tail, htext, htail⟩ := exists_dropEndWhile (fun c => c == '\n' || c == '\r') s.text
  exact ⟨tail, htext, fun c hc => by simpa using htail c hc⟩

theorem Stretch.batch?_eq_some {s : Stretch} {b : Batch} (h : s.batch? = some b) :
    b = ⟨s.body, s.before.length + 1, s.offset⟩ ∧ s.body.isBlankSql = false := by
  rw [s.batch?_eq] at h
  split at h
  · contradiction
  · rename_i hblank
    exact ⟨(Option.some.inj h).symm, by simpa using hblank⟩

theorem Stretch.own_ne_nil {s : Stretch} {b : Batch} (h : s.batch? = some b) : s.own ≠ [] := by
  intro hown
  have hnone := s.bind_close?
  simp [Stretch.pending?, hown, h] at hnone

/-- A batch of a buffer is that of a stretch which has lines. -/
theorem exists_of_mem_split {separator t : Text} {b : Batch} (h : b ∈ split separator t) :
    ∃ s ∈ stretches separator t, s.own ≠ [] ∧ s.body.isBlankSql = false ∧
      b = ⟨s.body, s.before.length + 1, s.offset⟩ := by
  rw [split_eq_filterMap, List.mem_filterMap] at h
  obtain ⟨s, hs, hbatch⟩ := h
  obtain ⟨heq, hcode⟩ := Stretch.batch?_eq_some hbatch
  exact ⟨s, hs, Stretch.own_ne_nil hbatch, hcode, heq⟩

theorem newline_not_mem_before {separator t : Text} {s : Stretch}
    (h : s ∈ stretches separator t) : ∀ line ∈ s.before ++ s.own, '\n' ∉ line := by
  obtain ⟨after, hlines⟩ := exists_lines_of_mem_stretches h
  intro line hline
  apply newline_not_mem_of_mem_lines (t := t)
  rw [hlines]
  exact List.mem_append_left _ hline

theorem standsIn_of_mem_split {separator t : Text} {b : Batch} (h : b ∈ split separator t) :
    b.StandsIn t := by
  obtain ⟨s, hs, hown, hblank, rfl⟩ := exists_of_mem_split h
  obtain ⟨tail, htext, -⟩ := s.exists_body_append
  obtain ⟨after, ht⟩ := eq_append_of_mem_stretches hs hown
  refine ⟨⟨s.before, tail ++ preceded after, by rw [ht, htext]; simp, rfl, ?_⟩, hblank⟩
  rw [count_newline_terminated fun line hl =>
    newline_not_mem_before hs line (List.mem_append_left _ hl)]

/-- Every batch ends before the next one starts, and on an earlier line. -/
theorem split_pairwise (separator t : Text) :
    (split separator t).Pairwise fun b b' =>
      b.offset + size b.text < b'.offset ∧ b.endLine < b'.startLine := by
  rw [split_eq_filterMap, List.pairwise_filterMap]
  refine (stretchesFrom_pairwise separator ⟨[], []⟩ _).imp_of_mem ?_
  rintro s s' hs - ⟨line, more, hbefore⟩ b hb b' hb'
  have hown : terminated s.own = s.text ++ ['\n'] := terminated_eq (Stretch.own_ne_nil hb)
  obtain ⟨rfl, -⟩ := Stretch.batch?_eq_some hb
  obtain ⟨rfl, -⟩ := Stretch.batch?_eq_some hb'
  obtain ⟨tail, htext, -⟩ := s.exists_body_append
  have hcount : (terminated s.own).count '\n' = s.own.length :=
    count_newline_terminated fun l hl => newline_not_mem_before hs l (List.mem_append_right _ hl)
  rw [hown, htext, List.count_append, List.count_append, List.count_singleton_self] at hcount
  constructor
  · simp only [Stretch.offset, hbefore, terminated_append, size_append, hown, htext, size_cons,
      utf8Size_newline]
    omega
  · simp only [endLine, hbefore, List.length_append, List.length_cons]
    omega

/-- Code of a stretch is code of its batch. -/
theorem Stretch.exists_batch?_of_isCode {s : Stretch} {i : Nat} (h : s.text.IsCode i) :
    ∃ b, s.batch? = some b ∧ b.offset = s.offset ∧ b.text.IsCode i ∧
      size (b.text.take i) = size (s.text.take i) ∧
      size (b.text.take (i + 1)) = size (s.text.take (i + 1)) := by
  obtain ⟨tail, htext, htail⟩ := s.exists_body_append
  have hpair : ∀ c, tail.head? = some c → isPairEnd c = false := by
    intro c hc
    rcases htail c (List.mem_of_head? hc) with rfl | rfl <;> decide
  have hi : i < s.body.length := by
    by_contra hge
    obtain ⟨c, r, hget, -, hblank, -⟩ := h
    have hchar := getElem?_of_regions hget
    rw [htext, List.getElem?_append_right (by omega)] at hchar
    rcases htail c (List.mem_of_getElem? hchar) with rfl | rfl <;>
      exact absurd hblank (by decide)
  have hcode : s.body.IsCode i := by
    rw [htext] at h
    exact (isCode_append_left hpair hi).mp h
  refine ⟨⟨s.body, s.before.length + 1, s.offset⟩, ?_, rfl, hcode, ?_, ?_⟩
  · rw [s.batch?_eq, hcode.not_isBlankSql]
    rfl
  · rw [htext, size_take_append_left _ _ (Nat.le_of_lt hi)]
  · rw [htext, size_take_append_left _ _ hi]

namespace Stretch

/-- The stretch with those lines before it. -/
def behind (lines : List Text) (s : Stretch) : Stretch :=
  ⟨lines ++ s.before, s.own⟩

end Stretch

def behind (head : Text) (b : Batch) : Batch :=
  ⟨b.text, b.startLine + head.count '\n', b.offset + size head⟩

theorem stretchesFrom_append_separator {separator masked : Text} (line : Text)
    (h : isSeparatorLine separator masked = true) (s : Stretch) (first rest : List (Text × Text)) :
    stretchesFrom separator s (first ++ (line, masked) :: rest) =
      stretchesFrom separator s first ++ stretchesFrom separator
        ⟨s.before ++ s.own ++ first.map Prod.fst ++ [line], []⟩ rest := by
  induction first generalizing s with
  | nil => simp [stretchesFrom, h]
  | cons x more ih =>
      obtain ⟨own, own'⟩ := x
      rw [List.cons_append, stretchesFrom, stretchesFrom]
      split <;> simp [ih]

theorem stretchesFrom_behind (separator : Text) (lines : List Text) (s : Stretch)
    (rest : List (Text × Text)) :
    stretchesFrom separator (s.behind lines) rest =
      (stretchesFrom separator s rest).map (Stretch.behind lines) := by
  induction rest generalizing s with
  | nil => rfl
  | cons x more ih =>
      obtain ⟨line, masked⟩ := x
      rw [stretchesFrom, stretchesFrom]
      split
      · rw [List.map_cons, ← ih]
        simp [Stretch.behind]
      · exact ih ⟨s.before, s.own ++ [line]⟩

theorem Stretch.batch?_behind {lines : List Text} (h : ∀ line ∈ lines, '\n' ∉ line) (s : Stretch) :
    (s.behind lines).batch? = s.batch?.map (Batch.behind (terminated lines)) := by
  have hstart : (lines ++ s.before).length + 1 = s.before.length + 1 + lines.length := by
    rw [List.length_append]
    omega
  have hoffset : size (terminated (lines ++ s.before)) =
      s.offset + size (terminated lines) := by
    rw [terminated_append, size_append, Nat.add_comm, Stretch.offset]
  rw [batch?_eq, batch?_eq]
  change (if s.body.isBlankSql then none else some (Batch.mk s.body ((lines ++ s.before).length + 1)
    (size (terminated (lines ++ s.before))))) = _
  rw [hstart, hoffset]
  split <;> simp [Batch.behind, count_newline_terminated h]

end Batch

/-- A line that is the separator whatever stands before it: one line of code. -/
structure IsSeparator (separator line : Text) : Prop where
  newline_not_mem : '\n' ∉ line
  endRegion : line.endRegion = .code ∨ line.endRegion = .lineComment
  isSeparatorLine : Batch.isSeparatorLine separator (line.mask .identifiers) = true

section

variable {separator line a : Text} (hline : IsSeparator separator line)
  (ha : a.endRegion = .code ∨ a.endRegion = .lineComment) (b : Text)

include ha

theorem Text.mask_append_newline (m : Mask) :
    (a ++ '\n' :: b).mask m = a.mask m ++ '\n' :: b.mask m := by
  rw [mask_eq_maskOf, regions_append_newline ha, maskOf_append, ← mask_eq_maskOf]
  rfl

include hline

/-- The stretches of two texts with a separator line between them. -/
theorem Batch.stretches_append :
    stretches separator (a ++ '\n' :: (line ++ '\n' :: b)) =
      stretches separator a ++
        (stretches separator b).map (Stretch.behind (a.lines ++ [line])) := by
  have hlines : lines (a ++ '\n' :: (line ++ '\n' :: b)) = a.lines ++ line :: b.lines := by
    rw [lines_append_newline, lines_append_newline, lines_of_newline_not_mem hline.newline_not_mem]
    rfl
  have hmask : lines ((a ++ '\n' :: (line ++ '\n' :: b)).mask .identifiers) =
      (a.mask .identifiers).lines ++ line.mask .identifiers :: (b.mask .identifiers).lines := by
    have hfree : '\n' ∉ line.mask .identifiers := by
      rw [← List.count_eq_zero, count_newline_mask, List.count_eq_zero]
      exact hline.newline_not_mem
    rw [mask_append_newline ha, mask_append_newline hline.endRegion, lines_append_newline,
      lines_append_newline, lines_of_newline_not_mem hfree]
    rfl
  have hlength : a.lines.length = (a.mask .identifiers).lines.length := by
    rw [length_lines, length_lines, count_newline_mask]
  rw [stretches, hlines, hmask, List.zip_append hlength, List.zip_cons_cons,
    stretchesFrom_append_separator _ hline.isSeparatorLine, map_fst_zip_mask, stretches, stretches,
    ← stretchesFrom_behind]
  simp [Stretch.behind]

/-- The batches of two texts with a separator line between them. -/
theorem Batch.split_append :
    split separator (a ++ '\n' :: (line ++ '\n' :: b)) =
      split separator a ++ (split separator b).map (behind (a ++ '\n' :: (line ++ ['\n']))) := by
  have hfree : ∀ l ∈ a.lines ++ [line], '\n' ∉ l := by
    intro l hl
    rcases List.mem_append.mp hl with hmem | hmem
    · exact newline_not_mem_of_mem_lines hmem
    · rw [List.mem_singleton.mp hmem]
      exact hline.newline_not_mem
  have hhead : terminated (a.lines ++ [line]) = a ++ '\n' :: (line ++ ['\n']) := by
    rw [terminated_append, terminated_eq (lines_ne_nil a), intercalate_lines]
    simp
  rw [split_eq_filterMap, stretches_append hline ha, List.filterMap_append, ← split_eq_filterMap,
    List.filterMap_map, split_eq_filterMap separator b, List.map_filterMap, ← hhead]
  congr 2
  funext s
  exact Stretch.batch?_behind hfree s

end

end SqlInsight
