/-
Batches scanned by themselves. A batch that begins where the scan of the buffer stands in code is
scanned alike by itself and in the buffer. All batches do so when no literal, delimited identifier
or comment reaches over the beginning or the end of a separator line. The mask by which separator
lines are found does not see to that: a comment that opens behind the separator and goes on below
the line leaves it a separator line, and the next batch begins inside that comment.
-/
import SqlInsight.Proofs.Batch.Stretches

namespace SqlInsight

open Text

namespace Batch

theorem isLineStart_terminated (lines : List Text) : (terminated lines).IsLineStart := by
  by_cases hlines : lines = []
  · exact Or.inl (by rw [hlines, terminated_nil])
  · exact Or.inr ⟨_, terminated_eq hlines⟩

/-- A batch is the text of a stretch without the line breaks at its end. -/
theorem exists_stretch_of_mem_split {separator t : Text} {b : Batch} (h : b ∈ split separator t) :
    ∃ s ∈ stretches separator t, s.own ≠ [] ∧ b.offset = size (terminated s.before) ∧
      ∃ breaks after, (∀ c ∈ breaks, c = '\n' ∨ c = '\r') ∧ s.text = b.text ++ breaks ∧
        t.lines = s.before ++ s.own ++ after ∧
        t = terminated s.before ++ b.text ++ (breaks ++ preceded after) := by
  obtain ⟨s, hs, hown, -, rfl⟩ := exists_of_mem_split h
  obtain ⟨breaks, htext, hbreaks⟩ := s.exists_body_append
  obtain ⟨after, hlines⟩ := exists_lines_of_mem_stretches hs
  refine ⟨s, hs, hown, rfl, breaks, after, hbreaks, htext, hlines, ?_⟩
  have ht : t = terminated s.before ++ s.text ++ preceded after := eq_of_lines_append hlines hown
  rw [ht, htext]
  simp

theorem isPairEnd_head?_lineBreaks {breaks : Text} (h : ∀ c ∈ breaks, c = '\n' ∨ c = '\r')
    (after : List Text) {x : Char} (hx : (breaks ++ preceded after).head? = some x) :
    isPairEnd x = false := by
  cases breaks with
  | nil =>
      cases after with
      | nil => simp [preceded_nil] at hx
      | cons line rest =>
          obtain rfl := Option.some.inj hx
          rfl
  | cons c rest =>
      obtain rfl := Option.some.inj hx
      rcases h c List.mem_cons_self with rfl | rfl <;> rfl

/-- A batch that begins where the buffer is in code is masked alike by itself and in the buffer. -/
theorem mask_eq_slice {separator t : Text} {b : Batch} (hb : b ∈ split separator t)
    (hcode : (t.takeBytes b.offset).endRegion = .code) (m : Mask) :
    b.text.mask m = (t.mask m).slice b.offset (b.offset + size b.text) := by
  obtain ⟨s, -, -, hoffset, breaks, after, hbreaks, -, -, ht⟩ := exists_stretch_of_mem_split hb
  rw [hoffset, ht, List.append_assoc, takeBytes_size_append] at hcode
  rw [hoffset, ht, slice_mask (isLineStart_terminated s.before) hcode
    (fun x hx => isPairEnd_head?_lineBreaks hbreaks after hx)]

/-- Whether the separator lines among some lines, each with its masked form, stand apart from the
literals, delimited identifiers and comments: the scan stands in code where one begins, and again
behind it if more lines follow. The lines before them are `done`. -/
def SeparatorsApartFrom (separator : Text) (done : List Text) : List (Text × Text) → Prop
  | [] => True
  | (line, masked) :: rest =>
      (isSeparatorLine separator masked = true → (terminated done).endRegion = .code ∧
        (rest ≠ [] → (terminated (done ++ [line])).endRegion = .code)) ∧
      SeparatorsApartFrom separator (done ++ [line]) rest

instance decidableSeparatorsApartFrom (separator : Text) :
    (done : List Text) → (rest : List (Text × Text)) →
      Decidable (SeparatorsApartFrom separator done rest)
  | _, [] => isTrue trivial
  | done, (line, _) :: rest =>
      have := decidableSeparatorsApartFrom separator (done ++ [line]) rest
      inferInstanceAs (Decidable (_ ∧ _))

/-- Whether the separator lines of a buffer stand apart from its literals, delimited identifiers and
comments. -/
def SeparatorsApart (separator t : Text) : Prop :=
  SeparatorsApartFrom separator [] (t.lines.zip (t.mask .identifiers).lines)

instance (separator t : Text) : Decidable (SeparatorsApart separator t) :=
  inferInstanceAs (Decidable (SeparatorsApartFrom _ _ _))

/-- Where the separator lines stand apart, every stretch with lines begins in code, and it ends in
code unless it is the last one. -/
theorem endRegion_of_mem_stretchesFrom {separator : Text} {s s' : Stretch}
    {rest : List (Text × Text)}
    (hapart : SeparatorsApartFrom separator (s.before ++ s.own) rest)
    (hstart : s.own ≠ [] ∨ rest ≠ [] → (terminated s.before).endRegion = .code)
    (h : s' ∈ stretchesFrom separator s rest) (hown : s'.own ≠ []) :
    (terminated s'.before).endRegion = .code ∧
      ((terminated (s'.before ++ s'.own)).endRegion = .code ∨
        s'.before ++ s'.own = s.before ++ s.own ++ rest.map Prod.fst) := by
  induction rest generalizing s with
  | nil =>
      obtain rfl := List.mem_singleton.mp h
      exact ⟨hstart (Or.inl hown), Or.inr (by simp)⟩
  | cons x rest ih =>
      obtain ⟨line, masked⟩ := x
      obtain ⟨hseparator, hrest⟩ := hapart
      have hcode := hstart (Or.inr (List.cons_ne_nil _ _))
      rw [stretchesFrom] at h
      split at h
      · rename_i hsep
        obtain ⟨hbegin, hbehind⟩ := hseparator hsep
        rcases List.mem_cons.mp h with rfl | hmem
        · exact ⟨hcode, Or.inl hbegin⟩
        · have hnext := ih (by simpa using hrest) (fun hne => hbehind (by simpa using hne)) hmem
          simpa using hnext
      · have hnext := ih (s := { s with own := s.own ++ [line] }) (by simpa using hrest)
          (fun _ => hcode) h
        simpa using hnext

/-- A text whose scan stands in code behind the line breaks at its end stands in code or in a line
comment before them. -/
theorem endRegion_of_lineBreaks {a breaks : Text} (hbreaks : ∀ c ∈ breaks, c = '\n' ∨ c = '\r')
    (h : (a ++ breaks).endRegion = .code) :
    a.endRegion = .code ∨ a.endRegion = .lineComment := by
  by_cases hline : a.endRegion = .lineComment
  · exact Or.inr hline
  · have hpair : ∀ x, breaks.head? = some x → isPairEnd x = false := by
      intro x hx
      apply isPairEnd_head?_lineBreaks hbreaks []
      simpa using hx
    rw [endRegion, scanFrom_append _ hpair, scanFrom_start, scanFrom_lineBreaks hline hbreaks] at h
    exact Or.inl h

/-- Batches are self-contained where the separator lines stand apart from the literals, delimited
identifiers and comments of the buffer: a batch begins in code, every mask leaves of it by itself
what it leaves in the buffer, and it ends in code or in a line comment unless nothing but line
breaks follows. -/
theorem selfContained_of_mem_split {separator t : Text} (h : SeparatorsApart separator t)
    {b : Batch} (hb : b ∈ split separator t) :
    (t.takeBytes b.offset).endRegion = .code ∧
      (∀ m, b.text.mask m = (t.mask m).slice b.offset (b.offset + size b.text)) ∧
      (b.text.endRegion = .code ∨ b.text.endRegion = .lineComment ∨
        ∀ c ∈ t.dropBytes (b.offset + size b.text), c = '\n' ∨ c = '\r') := by
  obtain ⟨s, hs, hown, hoffset, breaks, after, hbreaks, htext, hlines, ht⟩ :=
    exists_stretch_of_mem_split hb
  obtain ⟨hbegin, hend⟩ :=
    endRegion_of_mem_stretchesFrom (s := ⟨[], []⟩) h (fun _ => rfl) hs hown
  have hcode : (t.takeBytes b.offset).endRegion = .code := by
    rw [hoffset, ht, List.append_assoc, takeBytes_size_append]
    exact hbegin
  refine ⟨hcode, mask_eq_slice hb hcode, ?_⟩
  rcases hend with hclosed | hlast
  · have hbreaks' : ∀ c ∈ breaks ++ ['\n'], c = '\n' ∨ c = '\r' := by
      intro c hc
      rcases List.mem_append.mp hc with hmem | hmem
      · exact hbreaks c hmem
      · exact Or.inl (List.mem_singleton.mp hmem)
    have hown' : terminated s.own = b.text ++ (breaks ++ ['\n']) := by
      rw [terminated_eq hown, ← List.append_assoc, ← htext]
      rfl
    rw [terminated_append, hown', endRegion,
      scanFrom_append_of_isLineStart _ (isLineStart_terminated s.before), scanFrom_start, hbegin]
      at hclosed
    exact or_assoc.mp (Or.inl (endRegion_of_lineBreaks hbreaks' hclosed))
  · have hafter : after = [] := by
      rw [map_fst_zip_mask, hlines] at hlast
      simpa using hlast.symm
    rw [hoffset, ht, hafter, ← size_append, dropBytes_size_append, preceded_nil, List.append_nil]
    exact Or.inr (Or.inr hbreaks)

/-- The second batch ends with a literal that holds a line that looks like a separator. -/
theorem selfContained_of_mem_split_literal :
    SeparatorsApart "GO".toList "SELECT 1 -- one\nGO 2 -- twice\nSELECT '\nGO\n'".toList ∧
      ⟨"SELECT '\nGO\n'".toList, 3, 30⟩ ∈ split "GO".toList
        "SELECT 1 -- one\nGO 2 -- twice\nSELECT '\nGO\n'".toList ∧
      mask .literals "SELECT '\nGO\n'".toList =
        (mask .literals "SELECT 1 -- one\nGO 2 -- twice\nSELECT '\nGO\n'".toList).slice 30 43 := by
  have hapart : SeparatorsApart "GO".toList
      "SELECT 1 -- one\nGO 2 -- twice\nSELECT '\nGO\n'".toList := by decide +kernel
  have hmem : (⟨"SELECT '\nGO\n'".toList, 3, 30⟩ : Batch) ∈ split "GO".toList
      "SELECT 1 -- one\nGO 2 -- twice\nSELECT '\nGO\n'".toList :=
    List.mem_of_getElem? (i := 1) rfl
  exact ⟨hapart, hmem, (selfContained_of_mem_split hapart hmem).2.1 .literals⟩

/-- A batch that begins inside a comment: its first line closes what the separator line opened. -/
theorem mask_ne_slice_behind_comment :
    split "GO".toList "GO /*\n*/ SELECT 1".toList = [⟨"*/ SELECT 1".toList, 2, 6⟩] ∧
      mask .comments "*/ SELECT 1".toList ≠
        (mask .comments "GO /*\n*/ SELECT 1".toList).slice 6 17 :=
  ⟨rfl, by decide +kernel⟩

end Batch

end SqlInsight
