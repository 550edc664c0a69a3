/-
Where a finding about a qualified column is marked. The column in brackets is preferred to all ways
to write it with its qualifier, whatever stands before the brackets. So the finding is marked at
the column of its own qualifier exactly if the first column in brackets, where there is one, is that
of the qualifier.
-/
import SqlInsight.Proofs.Validation.Marks
import SqlInsight.Proofs.Validation.Resolution
import SqlInsight.Reading.Standard

namespace SqlInsight.Validation

open Text

/-- The ways to write a column with its qualifier, either of them in brackets or bare. -/
def qualifiedForms (q c : Text) : List Text :=
  [q ++ '.' :: bracket c, bracket q ++ '.' :: bracket c, q ++ '.' :: c, bracket q ++ '.' :: c]

/-- The column is written with its qualifier at an offset of a masked text, in some form. -/
def QualifiedAt (q c masked form : Text) (n : Nat) : Prop :=
  form ∈ qualifiedForms q c ∧ HoldsAt (wordAt form) masked n

/-- A place is the column with its qualifier, or the part behind the qualifier. -/
def CoversQualified (q c masked : Text) (place : Nat × Nat) : Prop :=
  ∃ form n, QualifiedAt q c masked form n ∧ n ≤ place.1 ∧ place.1 + place.2 = n + Text.size form

theorem coversQualified_iff {q c masked : Text} {place : Nat × Nat} :
    CoversQualified q c masked place ↔ ∃ form ∈ qualifiedForms q c,
      (Text.size form ≤ place.1 + place.2 ∧ place.2 ≤ Text.size form) ∧
        HoldsAt (wordAt form) masked (place.1 + place.2 - Text.size form) := by
  constructor
  · rintro ⟨form, n, ⟨hform, hholds⟩, hle, hend⟩
    have hstart : place.1 + place.2 - Text.size form = n := by omega
    exact ⟨form, hform, by omega, hstart ▸ hholds⟩
  · rintro ⟨form, hform, ⟨hsize, hpart⟩, hholds⟩
    exact ⟨form, _, ⟨hform, hholds⟩, by omega, by omega⟩

instance (q c masked : Text) (place : Nat × Nat) : Decidable (CoversQualified q c masked place) :=
  decidable_of_iff _ coversQualified_iff.symm

section

variable {q c t : Text} {start : Nat}

theorem occurs_qualified_iff {o : Occurrence} :
    (Anchor.identifier (some q) c).Occurs t o ↔
      ∃ form, (identifierForms (some q) c)[o.rank]? = some form ∧ form ≠ [] ∧
        o.size = Text.size form ∧ HoldsAt (wordAt form) (t.mask .literals) o.offset := by
  have hsame (form : Text) (hne : form ≠ []) :
      (Way.ofForm true (fun _ => true) form).holds = wordAt form := by
    funext before rest
    simp [Way.ofForm, hne]
  constructor
  · rintro ⟨way, hway, hsize, hholds⟩
    rw [Anchor.ways, waysOf, List.getElem?_map, Option.map_eq_some_iff] at hway
    obtain ⟨form, hform, rfl⟩ := hway
    have hne : form ≠ [] := by
      rintro rfl
      obtain ⟨u, v, -, -, -, hfalse⟩ := hholds
      simp [Way.ofForm] at hfalse
    rw [Option.isSome_some, hsame form hne] at hholds
    exact ⟨form, hform, hne, hsize, hholds⟩
  · rintro ⟨form, hform, hne, hsize, hholds⟩
    refine ⟨Way.ofForm true (fun _ => true) form, ?_, hsize, ?_⟩
    · rw [Anchor.ways, waysOf, List.getElem?_map, hform]
      rfl
    · rw [hsame form hne]
      exact hholds

theorem occurs_bracket {n : Nat} (h : HoldsAt (wordAt (bracket c)) (t.mask .literals) n) :
    (Anchor.identifier (some q) c).Occurs t ⟨0, n, Text.size (bracket c)⟩ :=
  occurs_qualified_iff.mpr ⟨bracket c, rfl, List.cons_ne_nil _ _, rfl, h⟩

/-- The forms of rank one to four are those with the qualifier. -/
theorem identifierForms_qualified (q c : Text) :
    identifierForms (some q) c = bracket c :: (qualifiedForms q c ++ [c]) := rfl

theorem exists_occurs_qualified {form : Text} {n : Nat}
    (h : QualifiedAt q c (t.mask .literals) form n) :
    ∃ rank, rank ≤ 4 ∧ (Anchor.identifier (some q) c).Occurs t ⟨rank, n, Text.size form⟩ := by
  obtain ⟨hform, hholds⟩ := h
  have hne : form ≠ [] := by
    rintro rfl
    simp [qualifiedForms] at hform
  obtain ⟨i, hi⟩ := List.mem_iff_getElem?.mp hform
  have hlt : i < 4 := (List.getElem?_eq_some_iff.mp hi).1
  refine ⟨i + 1, hlt, occurs_qualified_iff.mpr ⟨form, ?_, hne, rfl, hholds⟩⟩
  rw [identifierForms_qualified, List.getElem?_cons_succ, List.getElem?_append_left hlt, hi]

/-- The first column in brackets is what a search finds. -/
theorem find?_of_bracket (hcut : IsCut (t.mask .literals) start) {n : Nat}
    (h : FirstFrom (wordAt (bracket c)) (t.mask .literals) start n) :
    (Anchor.identifier (some q) c).find? t start = some (n, Text.size (bracket c)) := by
  have hne : Anchor.identifier (some q) c ≠ .star := by simp
  have hoccurs := occurs_bracket (q := q) h.holds
  cases hfind : (Anchor.identifier (some q) c).find? t start with
  | none =>
      have hlt := (Anchor.find?_eq_none_iff hne hcut).mp hfind _ hoccurs
      exact absurd h.start_le (Nat.not_le.mpr hlt)
  | some found =>
      obtain ⟨rank, hfound, hstart, hbest⟩ := Anchor.exists_foundFrom hne hcut hfind
      rcases hbest _ hoccurs h.start_le with hless | ⟨rfl, hle⟩
      · exact absurd hless (Nat.not_lt_zero rank)
      · obtain ⟨form, hform, -, hsize, hholds⟩ := occurs_qualified_iff.mp hfound
        obtain rfl := Option.some.inj hform
        have hsame := Nat.le_antisymm hle (h.le_of_holds found.1 hholds hstart)
        rw [Option.some.injEq]
        exact Prod.ext hsame hsize

/-- If no column in brackets stands behind the start of a search, but the column with its qualifier
does, the search finds one of these. -/
theorem exists_coversQualified (hcut : IsCut (t.mask .literals) start)
    (hnone : ∀ n, HoldsAt (wordAt (bracket c)) (t.mask .literals) n → n < start) {form : Text}
    {n : Nat} (h : QualifiedAt q c (t.mask .literals) form n) (hle : start ≤ n) :
    ∃ found, (Anchor.identifier (some q) c).find? t start = some found ∧
      CoversQualified q c (t.mask .literals) found := by
  have hne : Anchor.identifier (some q) c ≠ .star := by simp
  obtain ⟨rank', hrank', hoccurs⟩ := exists_occurs_qualified h
  cases hfind : (Anchor.identifier (some q) c).find? t start with
  | none =>
      have hlt := (Anchor.find?_eq_none_iff hne hcut).mp hfind _ hoccurs
      exact absurd hle (Nat.not_le.mpr hlt)
  | some found =>
      obtain ⟨rank, hfound, hstart, hbest⟩ := Anchor.exists_foundFrom hne hcut hfind
      have hrank : rank ≤ rank' := by
        rcases hbest _ hoccurs hle with hless | ⟨hsame, -⟩
        · exact Nat.le_of_lt hless
        · exact Nat.le_of_eq hsame
      obtain ⟨form', hform', -, hsize, hholds⟩ := occurs_qualified_iff.mp hfound
      refine ⟨found, rfl, form', found.1, ⟨?_, hholds⟩, Nat.le_refl _, by rw [← hsize]⟩
      rw [identifierForms_qualified] at hform'
      cases rank with
      | zero =>
          obtain rfl := Option.some.inj hform'
          have hlt := hnone found.1 hholds
          exact absurd hstart (Nat.not_le.mpr hlt)
      | succ i =>
          have hi : i < (qualifiedForms q c).length := Nat.lt_of_lt_of_le hrank hrank'
          rw [List.getElem?_cons_succ, List.getElem?_append_left hi] at hform'
          exact List.mem_of_getElem? hform'

end

/-- Where the findings about the column `c` of `q` are marked: one after another at the spots of
their anchor, of which the first is sought from the start of the text. From where the search begins,
the first column `c` in brackets is marked, whatever its qualifier. And if `c` with the qualifier
`q` stands there, it is marked exactly if that first column in brackets, where there is one, belongs
to `q`. -/
theorem qualified_marked (b : Batch) (s : StatementText) (findings : List Finding) (q c : Text) :
    let column : Anchor := .identifier (some q) c
    let masked := s.text.mask .literals
    rangesOf b s findings column =
        (List.range (countOf column findings)).map (fun k =>
          rangeOf b s (column.spot s.text k)) ∧
      column.searchStart s.text 0 = 0 ∧
      ∀ k, let start := column.searchStart s.text k
        (∀ n, FirstFrom (wordAt (bracket c)) masked start n →
          column.spot s.text k = (n, Text.size (bracket c))) ∧
        ((∃ form n, QualifiedAt q c masked form n ∧ start ≤ n) →
          (CoversQualified q c masked (column.spot s.text k) ↔
            ∀ n, FirstFrom (wordAt (bracket c)) masked start n →
              CoversQualified q c masked (n, Text.size (bracket c)))) := by
  intro column masked
  refine ⟨rangesOf_eq b s findings column, Anchor.searchStart_zero column s.text, ?_⟩
  intro k start
  have hne : column ≠ .star := by simp [column]
  have hcut : IsCut masked start := Anchor.isCut_searchStart hne s.text k
  have hfirst {n : Nat} (h : FirstFrom (wordAt (bracket c)) masked start n) :
      column.spot s.text k = (n, Text.size (bracket c)) := by
    rw [Anchor.spot_eq, find?_of_bracket hcut h]
    rfl
  refine ⟨fun n => hfirst, ?_⟩
  rintro ⟨form, m, hqualified, hle⟩
  constructor
  · intro hcovers n hn
    rwa [← hfirst hn]
  · intro hall
    cases hseek : seek (wordAt (bracket c)) start masked with
    | some n =>
        have hn := (seek_eq_some_iff hcut).mp hseek
        rw [hfirst hn]
        exact hall n hn
    | none =>
        have hnone := (seek_eq_none_iff hcut).mp hseek
        obtain ⟨found, hfind, hcovers⟩ := exists_coversQualified hcut hnone hqualified hle
        have hspot : column.spot s.text k = found := by
          rw [Anchor.spot_eq, hfind]
          rfl
        rwa [hspot]

/-- A column of `u` that is missing, and no column in brackets. -/
theorem qualified_marked_bare :
    let t : Text := "SELECT u.Total, o.Total FROM Users u".toList
    let u : Text := "u".toList
    let total : Text := "Total".toList
    (∃ form n, QualifiedAt u total (t.mask .literals) form n ∧ 0 ≤ n) ∧
      (validate ⟨standardParser, {}⟩ (some plainShop) t).map (·.range) =
        [⟨⟨1, 8⟩, ⟨1, 15⟩⟩] ∧
      (Anchor.identifier (some u) total).spot t 0 = (7, 7) ∧
      CoversQualified u total (t.mask .literals) (7, 7) := by
  intro t u total
  have hqualified : ∃ form n, QualifiedAt u total (t.mask .literals) form n ∧ 0 ≤ n :=
    ⟨u ++ '.' :: total, 7, ⟨by decide, by decide +kernel⟩, Nat.zero_le 7⟩
  have hspot : (Anchor.identifier (some u) total).spot t 0 = (7, 7) := by decide +kernel
  refine ⟨hqualified, by decide +kernel, hspot, ?_⟩
  obtain ⟨-, hstart, hmarked⟩ := qualified_marked ⟨t, 1, 0⟩ ⟨t, 0⟩ [] u total
  have hiff := (hmarked 0).2
  simp only [hstart, hspot] at hiff
  apply (hiff hqualified).mpr
  intro n hn
  have hnone : seek (wordAt (bracket total)) 0 (t.mask .literals) = none := by decide +kernel
  have hlt := (seek_eq_none_iff (isCut_zero _)).mp hnone n hn.holds
  exact absurd hlt (Nat.not_lt_zero n)

/-- The missing column of `u` is marked at the column of `o` if that is written in brackets, though
the column is written with `u` as well. -/
theorem marked_behind_other_qualifier :
    let orders : Schema.Table :=
      .base "dbo".toList "Orders".toList [.plain "Total".toList "int".toList]
    let t : Text := "SELECT u.Total, o.[Total] FROM Users u, Orders o".toList
    let total : Text := "Total".toList
    QualifiedAt "u".toList total (t.mask .literals) "u.Total".toList 7 ∧
      (validate ⟨standardParser, {}⟩ (some ⟨"Shop".toList, [plainUsers, orders], []⟩) t).map
          (fun d => (d.message, d.range)) =
        [("Column 'Total' not found in 'dbo.Users'".toList, ⟨⟨1, 19⟩, ⟨1, 26⟩⟩)] ∧
      (Anchor.identifier (some "u".toList) total).spot t 0 = (18, 7) ∧
      CoversQualified "o".toList total (t.mask .literals) (18, 7) ∧
      ¬ CoversQualified "u".toList total (t.mask .literals) (18, 7) := by
  intro orders t total
  refine ⟨⟨by decide, by decide +kernel⟩, by decide +kernel, by decide +kernel, ?_, ?_⟩
  · decide +kernel
  · decide +kernel

end SqlInsight.Validation
