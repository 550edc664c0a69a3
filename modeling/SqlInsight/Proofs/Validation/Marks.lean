/-
Where the findings about one anchor are marked. Each is sought behind the last one, and from the
start again if nothing is found there; findings about other anchors make no difference. A search
prefers one way to write an anchor to another, and takes of all occurrences from its start on the
first one of the most preferred way.
-/
import SqlInsight.Proofs.Text.Occurrences
import SqlInsight.Proofs.Validation.Filters
import SqlInsight.Proofs.Validation.Places

namespace SqlInsight.Validation

open Text

namespace Anchor

/-- Where the search for an anchor begins that was marked `k` times before. -/
def cursor (a : Anchor) (t : Text) : Nat → Nat
  | 0 => 0
  | k + 1 =>
      match (a.find? t (a.cursor t k)).or (a.find? t 0) with
      | some (offset, size) => offset + size
      | none => a.cursor t k

/-- Where an anchor is marked that was marked `k` times before. -/
def spot (a : Anchor) (t : Text) (k : Nat) : Nat × Nat :=
  ((a.find? t (a.cursor t k)).or (a.find? t 0)).getD (0, firstWordSize t)

/-- Where the last search for it began: at the cursor, or at the start if nothing is found behind
the cursor. -/
def searchStart (a : Anchor) (t : Text) (k : Nat) : Nat :=
  if (a.find? t (a.cursor t k)).isSome then a.cursor t k else 0

theorem searchStart_zero (a : Anchor) (t : Text) : a.searchStart t 0 = 0 :=
  ite_self (0 : Nat)

theorem spot_eq (a : Anchor) (t : Text) (k : Nat) :
    a.spot t k = (a.find? t (a.searchStart t k)).getD (0, firstWordSize t) := by
  unfold spot searchStart
  cases h : a.find? t (a.cursor t k) with
  | none => simp
  | some found => simp [h]

theorem cursor_of_find? {a : Anchor} {t : Text} {k : Nat} {found : Nat × Nat}
    (h : a.find? t (a.cursor t k) = some found) : a.cursor t (k + 1) = found.1 + found.2 := by
  rw [cursor, h]
  rfl

theorem spot_of_find? {a : Anchor} {t : Text} {k : Nat} {found : Nat × Nat}
    (h : a.find? t (a.cursor t k) = some found) : a.spot t k = found := by
  rw [spot, h]
  rfl

end Anchor

section

variable {t : Text} {marked : List (Anchor × Nat)} {a : Anchor} {k : Nat}

theorem mark_spot (h : (marked.lookup a).getD 0 = a.cursor t k) :
    (mark t marked a).1 = a.spot t k ∧
      ((mark t marked a).2.lookup a).getD 0 = a.cursor t (k + 1) := by
  unfold mark Anchor.spot
  rw [Anchor.cursor, h]
  cases (a.find? t (a.cursor t k)).or (a.find? t 0) with
  | none => exact ⟨rfl, h⟩
  | some found =>
      refine ⟨rfl, ?_⟩
      simp only
      rw [Keyed.lookup_put, if_pos rfl]
      rfl

end

/-- How many of the findings are about an anchor. -/
def countOf (a : Anchor) (findings : List Finding) : Nat :=
  findings.countP (·.anchor = a)

/-- The ranges of the findings in a statement that are about an anchor, in the order in which they
were found. -/
def rangesOf (b : Batch) (s : StatementText) (findings : List Finding) (a : Anchor) : List Range :=
  ((findings.zip (place b s [] findings)).filter fun x => x.1.anchor = a).map (·.2.range)

theorem rangesFrom_eq (b : Batch) (s : StatementText) {marked : List (Anchor × Nat)} {a : Anchor}
    {k : Nat} (h : (marked.lookup a).getD 0 = a.cursor s.text k) (findings : List Finding) :
    ((findings.zip (place b s marked findings)).filter fun x => x.1.anchor = a).map (·.2.range) =
      (List.range' k (countOf a findings)).map fun i => rangeOf b s (a.spot s.text i) := by
  induction findings generalizing marked k with
  | nil => rfl
  | cons f rest ih =>
      rw [place_cons, List.zip_cons_cons, countOf]
      by_cases ha : f.anchor = a
      · subst ha
        have hmark := mark_spot h
        rw [List.filter_cons_of_pos (by simp), List.countP_cons_of_pos (by simp), List.map_cons,
          range_diagnostic, List.range'_succ, List.map_cons, ih hmark.2, hmark.1, countOf]
      · have hnext : ((mark s.text marked f.anchor).2.lookup a).getD 0 = a.cursor s.text k := by
          rw [lookup_mark (Ne.symm ha)]
          exact h
        rw [List.filter_cons_of_neg (by simpa using ha),
          List.countP_cons_of_neg (by simpa using ha), ih hnext, countOf]

/-- Findings about an anchor are marked at its spots, one after another. -/
theorem rangesOf_eq (b : Batch) (s : StatementText) (findings : List Finding) (a : Anchor) :
    rangesOf b s findings a =
      (List.range (countOf a findings)).map fun k => rangeOf b s (a.spot s.text k) := by
  have hstart : (([] : List (Anchor × Nat)).lookup a).getD 0 = a.cursor s.text 0 := rfl
  rw [rangesOf, rangesFrom_eq b s hstart findings, List.range_eq_range']

/-- A way to write an anchor: a test of the text before a place, in reverse, and the text from there
on, and the size of what is found there. -/
structure Way where
  holds : Text → Text → Bool
  size : Nat

/-- A form of an identifier as a way to write it. -/
def Way.ofForm (qualified : Bool) (accept : Text → Bool) (form : Text) : Way where
  holds before rest :=
    !form.isEmpty && (wordAt form before rest
      && (qualified || !isDottedPart before (rest.drop form.length)) && accept before)
  size := Text.size form

/-- The ways to write an identifier where the text before it is accepted. -/
def waysOf (qualifier : Option Text) (name : Text) (accept : Text → Bool) : List Way :=
  (identifierForms qualifier name).map (Way.ofForm qualifier.isSome accept)

/-- A place where an anchor is written: the rank of the way among those to write it, which is less
for a preferred way, and the offset and the size. -/
structure Occurrence where
  rank : Nat
  offset : Nat
  size : Nat

namespace Anchor

/-- The ways to write an anchor, the preferred ones first; a star is not sought by them. -/
def ways : Anchor → List Way
  | identifier qualifier name => waysOf qualifier name fun _ => true
  | table schema name => waysOf schema name introducesTable ++ waysOf schema name fun _ => true
  | word w => [⟨fun before rest => !w.isEmpty && wordAt w before rest, Text.size w⟩]
  | star => []

/-- The texts that these ways look for. -/
def forms : Anchor → List Text
  | identifier qualifier name | table qualifier name => identifierForms qualifier name
  | word w => [w]
  | star => []

/-- The mask under which an anchor is sought. -/
def mask : Anchor → Mask
  | identifier _ _ | table _ _ => .literals
  | word _ | star => .identifiers

/-- The anchor is written there in the text, outside of what its mask blanks. -/
def Occurs (a : Anchor) (t : Text) (o : Occurrence) : Prop :=
  ∃ way, a.ways[o.rank]? = some way ∧ o.size = way.size ∧
    HoldsAt way.holds (t.mask a.mask) o.offset

end Anchor

section

variable {t : Text} {start : Nat}

theorem seek_false : seek (fun _ _ => false) start t = none := by
  apply Option.eq_none_iff_forall_not_mem.mpr
  intro n hseek
  obtain ⟨u, v, -, -, -, hfalse⟩ := holdsAt_of_seek hseek
  contradiction

/-- The searches for the forms of an identifier are those for the ways to write it. -/
theorem locateIdentifierFrom_eq (qualifier : Option Text) (name : Text) (accept : Text → Bool) :
    t.locateIdentifierFrom qualifier name start accept =
      (waysOf qualifier name accept).findSome? fun way =>
        (seek way.holds start (t.mask .literals)).map (·, way.size) := by
  rw [locateIdentifierFrom, waysOf, List.findSome?_map]
  congr 1
  funext form
  rw [Function.comp_apply, Way.ofForm, findForm]
  cases h : form.isEmpty with
  | true => simp [seek_false]
  | false => simp

theorem Anchor.find?_eq {a : Anchor} (ha : a ≠ .star) : a.find? t start =
    a.ways.findSome? fun way => (seek way.holds start (t.mask a.mask)).map (·, way.size) := by
  cases a with
  | identifier qualifier name => exact locateIdentifierFrom_eq qualifier name _
  | table schema name =>
      rw [Anchor.find?, locateIdentifierFrom_eq, locateIdentifierFrom_eq, ways,
        List.findSome?_append]
      rfl
  | word w =>
      rw [Anchor.find?, findWord, ways]
      cases h : w.isEmpty with
      | true => simp [seek_false]
      | false => simp [Anchor.mask]
  | star => contradiction

/-- What stands at the first place found is an occurrence of the most preferred way that has one
from the start on, and the first one of that way. -/
def Anchor.FoundFrom (a : Anchor) (t : Text) (start : Nat) (o : Occurrence) : Prop :=
  a.Occurs t o ∧ start ≤ o.offset ∧ ∀ o', a.Occurs t o' → start ≤ o'.offset →
    o.rank < o'.rank ∨ o.rank = o'.rank ∧ o.offset ≤ o'.offset

theorem Anchor.find?_eq_none_iff {a : Anchor} (ha : a ≠ .star)
    (hcut : IsCut (t.mask a.mask) start) :
    a.find? t start = none ↔ ∀ o, a.Occurs t o → o.offset < start := by
  rw [find?_eq ha, List.findSome?_eq_none_iff]
  constructor
  · rintro hnone o ⟨way, hway, -, hholds⟩
    have hseek := hnone way (List.mem_of_getElem? hway)
    rw [Option.map_eq_none_iff, seek_eq_none_iff hcut] at hseek
    exact hseek o.offset hholds
  · intro hall way hmem
    obtain ⟨rank, hway⟩ := List.mem_iff_getElem?.mp hmem
    rw [Option.map_eq_none_iff, seek_eq_none_iff hcut]
    intro n hholds
    exact hall ⟨rank, n, way.size⟩ ⟨way, hway, rfl, hholds⟩

/-- A search from a cut gives the first occurrence of the most preferred way that has one. -/
theorem Anchor.exists_foundFrom {a : Anchor} (ha : a ≠ .star)
    (hcut : IsCut (t.mask a.mask) start) {found : Nat × Nat} (h : a.find? t start = some found) :
    ∃ rank, a.FoundFrom t start ⟨rank, found.1, found.2⟩ := by
  rw [find?_eq ha, List.findSome?_eq_some_iff] at h
  obtain ⟨preferred, way, others, hways, hmap, hnone⟩ := h
  obtain ⟨n, hseek, rfl⟩ := Option.map_eq_some_iff.mp hmap
  have hfirst := (seek_eq_some_iff hcut).mp hseek
  have hrank : a.ways[preferred.length]? = some way := by simp [hways]
  refine ⟨preferred.length, ⟨way, hrank, rfl, hfirst.holds⟩, hfirst.start_le, ?_⟩
  rintro o' ⟨way', hway', -, hholds⟩ hle
  rcases Nat.lt_trichotomy preferred.length o'.rank with hless | heq | hmore
  · exact Or.inl hless
  · rw [← heq, hrank, Option.some.injEq] at hway'
    subst hway'
    exact Or.inr ⟨heq, hfirst.le_of_holds o'.offset hholds hle⟩
  · rw [hways, List.getElem?_append_left hmore] at hway'
    have hseek' := hnone way' (List.mem_of_getElem? hway')
    rw [Option.map_eq_none_iff, seek_eq_none_iff hcut] at hseek'
    have hlt := hseek' o'.offset hholds
    omega

theorem Anchor.mem_ways {a : Anchor} {way : Way} (h : way ∈ a.ways) :
    ∃ form ∈ a.forms, way.size = Text.size form ∧
      ∀ before rest, way.holds before rest = true → form ≠ [] ∧ wordAt form before rest = true := by
  have hforms {qualifier : Option Text} {name : Text} {accept : Text → Bool}
      (hmem : way ∈ waysOf qualifier name accept) :
      ∃ form ∈ identifierForms qualifier name, way.size = Text.size form ∧ ∀ before rest,
        way.holds before rest = true → form ≠ [] ∧ wordAt form before rest = true := by
    obtain ⟨form, hform, rfl⟩ := List.mem_map.mp hmem
    refine ⟨form, hform, rfl, ?_⟩
    intro before rest hholds
    simp only [Way.ofForm, Bool.and_eq_true, Bool.not_eq_true'] at hholds
    exact ⟨by simpa using hholds.1, hholds.2.1.1⟩
  cases a with
  | identifier qualifier name => exact hforms h
  | table schema name =>
      rcases List.mem_append.mp h with hfirst | hsecond
      · exact hforms hfirst
      · exact hforms hsecond
  | word w =>
      rw [ways, List.mem_singleton] at h
      subst h
      refine ⟨w, List.mem_singleton_self w, rfl, ?_⟩
      intro before rest hholds
      simpa using hholds
  | star => contradiction

theorem Anchor.Occurs.exists_form {a : Anchor} {o : Occurrence} (h : a.Occurs t o) :
    ∃ form ∈ a.forms, form ≠ [] ∧ o.size = Text.size form ∧
      HoldsAt (wordAt form) (t.mask a.mask) o.offset := by
  obtain ⟨way, hway, hsize, hholds⟩ := h
  obtain ⟨form, hform, hsame, hword⟩ := mem_ways (List.mem_of_getElem? hway)
  obtain ⟨u, v, ht, hv, hn, hp⟩ := hholds
  obtain ⟨hne, hstands⟩ := hword _ _ hp
  exact ⟨form, hform, hne, hsize.trans hsame, u, v, ht, hv, hn, hstands⟩

theorem Anchor.Occurs.size_pos {a : Anchor} {o : Occurrence} (h : a.Occurs t o) : 0 < o.size := by
  obtain ⟨form, -, hne, hsize, -⟩ := h.exists_form
  rw [hsize]
  exact Text.size_pos hne

theorem Anchor.Occurs.isCut_end {a : Anchor} {o : Occurrence} (h : a.Occurs t o) :
    IsCut (t.mask a.mask) (o.offset + o.size) := by
  obtain ⟨form, -, -, hsize, hholds⟩ := h.exists_form
  rw [hsize]
  exact hholds.isCut_add

end

section

variable {a : Anchor} {t : Text} {k : Nat}

/-- Each search begins at a cut of the masked text. -/
theorem Anchor.isCut_cursor (ha : a ≠ .star) (t : Text) (k : Nat) :
    IsCut (t.mask a.mask) (a.cursor t k) := by
  induction k with
  | zero => exact isCut_zero _
  | succ k ih =>
      rw [cursor]
      cases h : (a.find? t (a.cursor t k)).or (a.find? t 0) with
      | none => exact ih
      | some found =>
          rcases Option.or_eq_some_iff.mp h with hnext | ⟨-, hfirst⟩
          · obtain ⟨rank, hfound⟩ := exists_foundFrom ha ih hnext
            exact hfound.1.isCut_end
          · obtain ⟨rank, hfound⟩ := exists_foundFrom ha (isCut_zero _) hfirst
            exact hfound.1.isCut_end

theorem Anchor.isCut_searchStart (ha : a ≠ .star) (t : Text) (k : Nat) :
    IsCut (t.mask a.mask) (a.searchStart t k) := by
  unfold searchStart
  split
  · exact isCut_cursor ha t k
  · exact isCut_zero _

end

end SqlInsight.Validation
