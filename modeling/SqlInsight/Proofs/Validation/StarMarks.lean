/-
Where the advice about stars is marked. It is marked at the first star of the code behind the first
`SELECT`, whatever that star is: a wildcard of the outermost list, a factor, an argument, or a star
in a common table expression. So it is marked at a wildcard of the outermost list exactly if no star
stands between the first `SELECT` of the text and the first wildcard of that list.
-/
import SqlInsight.Proofs.Validation.Advice
import SqlInsight.Proofs.Validation.Marks
import SqlInsight.Proofs.Validation.Resolution
import SqlInsight.Reading.Standard

namespace SqlInsight

open Text

namespace Text

/-- A star stands at the start of what follows a text. -/
def starAt (_ rest : Text) : Bool :=
  rest.head? == some '*'

/-- How many more parentheses a text opens than it closes. -/
def nesting (t : Text) : Int :=
  t.count '(' - t.count ')'

/-- An item of a `SELECT` list ends in front of a text: at the end, at a comma, or at a word that
may follow the list. -/
def EndsItem (t : Text) : Prop :=
  t.isBlank = true ∨ t.trimStart.head? = some ',' ∨
    wordAt "FROM".toList [] t.trimStart = true ∨ wordAt "INTO".toList [] t.trimStart = true

instance : DecidablePred EndsItem := fun t =>
  inferInstanceAs (Decidable (t.isBlank = true ∨ t.trimStart.head? = some ',' ∨
    wordAt "FROM".toList [] t.trimStart = true ∨ wordAt "INTO".toList [] t.trimStart = true))

/-- In a masked text the star at `m` is a wildcard item of the list of the `SELECT` at `n`, which is
an outermost one: both stand outside of all parentheses, the list has not ended before the star, and
an item ends behind it. -/
def OuterWildcard (masked : Text) (n m : Nat) : Prop :=
  ∃ u list v, masked = u ++ list ++ '*' :: v ∧ size u = n ∧ size (u ++ list) = m ∧
    wordAt "SELECT".toList u.reverse (list ++ '*' :: v) = true ∧
    nesting u = 0 ∧ nesting (u ++ list) = 0 ∧
    Validation.Checker.hasOuterFrom 0 u.reverse list = false ∧ EndsItem v

section

variable {t masked : Text} {start n m : Nat}

theorem OuterWildcard.select (h : OuterWildcard masked n m) :
    HoldsAt (wordAt "SELECT".toList) masked n := by
  obtain ⟨u, list, v, hmasked, hn, -, hselect, -⟩ := h
  exact ⟨u, list ++ '*' :: v, by rw [hmasked, List.append_assoc], by simp, hn, hselect⟩

theorem OuterWildcard.star (h : OuterWildcard masked n m) : HoldsAt starAt masked m := by
  obtain ⟨u, list, v, hmasked, -, hm, -⟩ := h
  exact ⟨u ++ list, '*' :: v, hmasked, List.cons_ne_nil _ _, hm, rfl⟩

theorem OuterWildcard.le (h : OuterWildcard masked n m) : n ≤ m := by
  obtain ⟨u, list, v, -, rfl, rfl, -⟩ := h
  rw [size_append]
  exact Nat.le_add_right _ _

theorem OuterWildcard.nesting_eq (h : OuterWildcard masked n m) :
    nesting (masked.takeBytes m) = 0 := by
  obtain ⟨u, list, v, rfl, -, rfl, -, -, hnesting, -⟩ := h
  rwa [takeBytes_size_append (u ++ list)]

/-- The first star behind a cut. -/
theorem firstFrom_star {a b : Text} (ha : '*' ∉ a) {u : Text} :
    FirstFrom starAt (u ++ (a ++ '*' :: b)) (size u) (size u + size a) := by
  refine ⟨⟨u ++ a, '*' :: b, by simp, List.cons_ne_nil _ _, size_append u a, rfl⟩,
    Nat.le_add_right _ _, ?_⟩
  rintro m ⟨x, y, hsplit, -, rfl, hstar⟩ hle
  by_contra hlt
  obtain ⟨x, rfl, hrest⟩ := exists_append_of_size_le hsplit hle
  rw [size_append, Nat.not_le] at hlt
  obtain ⟨y', rfl, hy⟩ := exists_append_of_size_le hrest.symm (by omega)
  cases y' with
  | nil => simp at hlt
  | cons c rest =>
      rw [hy] at hstar
      have hc : c = '*' := by simpa [starAt] using hstar
      apply ha
      simp [hc]

/-- The star of a list is sought behind the first `SELECT`, and the first one there is found. -/
theorem findStar?_eq {n r : Nat} (hstart : IsCut (t.mask .identifiers) start)
    (hn : FirstFrom (wordAt "SELECT".toList) (t.mask .identifiers) start n)
    (hr : FirstFrom starAt (t.mask .identifiers) n r) :
    Validation.Anchor.findStar? t start = some (r, 1) := by
  have hword : (t.mask .identifiers).findWord "SELECT".toList start = some n :=
    (seek_eq_some_iff hstart).mpr hn
  obtain ⟨u, v, hmask, -, rfl, -⟩ := hn.holds
  have hmem : '*' ∈ v := by
    obtain ⟨x, y, hsplit, -, rfl, hstar⟩ := hr.holds
    rw [hmask] at hsplit
    obtain ⟨x, -, rfl⟩ := exists_append_of_size_le hsplit hr.start_le
    cases y with
    | nil => contradiction
    | cons c rest =>
        have hc : c = '*' := by simpa [starAt] using hstar
        simp [hc]
  obtain ⟨a, b, rfl, ha⟩ := List.eq_append_cons_of_mem hmem
  have hfirst : FirstFrom starAt (t.mask .identifiers) (size u) (size u + size a) := by
    rw [hmask]
    exact firstFrom_star ha
  have hfind : find? (a ++ '*' :: b) ['*'] = some (size a) := by
    rw [find?_append ha]
    simp [find?, findFrom, startsWith]
  rw [hmask] at hword
  simp only [Validation.Anchor.findStar?, hmask, hword, Option.bind_eq_bind, Option.bind_some,
    dropBytes_size_append, hfind, hr.unique hfirst]
  rfl

end

end Text

namespace Validation

open Outline

/-- The findings of a check are told apart by their anchors. -/
theorem fits_of_mem {s : Settings} {schema : Schema} {statement : Statement} {t : Text}
    {f : Finding} (h : f ∈ statementFindings s schema statement t) : f.Fits := by
  obtain ⟨hkept, hfits⟩ := statementFindings_kept s schema statement t
  rw [hkept] at h
  exact hfits f (List.mem_of_mem_filter h)

/-- The advices about stars are the findings whose anchor is a star. -/
theorem Finding.Fits.star_iff {f : Finding} (h : f.Fits) :
    f.anchor = .star ↔ f.code = .selectStar := by
  have hwith := h { selectStar := true, missingWhere := false }
  have hwithout := h { selectStar := false, missingWhere := false }
  cases hanchor : f.anchor <;> cases hcode : f.code <;>
    simp_all [Anchor.isWanted, Settings.wants]

theorem codes_place (b : Batch) (s : StatementText) (marked : List (Anchor × Nat))
    (findings : List Finding) :
    (place b s marked findings).map (·.code) = findings.map (·.code) := by
  induction findings generalizing marked with
  | nil => rfl
  | cons f rest ih => rw [place_cons, List.map_cons, List.map_cons, code_diagnostic, ih]

/-- A query with one outermost `SELECT` has one advice about stars at most. -/
theorem countOf_star_le (settings : Settings) (schema : Schema) (ctes : List Cte) (select : Select)
    (order : List Expression) (t : Text) :
    countOf .star (statementFindings settings schema (.select (.mk ctes [select] order)) t) ≤
      1 := by
  let c : Checker := ⟨settings, ⟨schema, []⟩, [], []⟩
  have hsees : c.Sees settings schema [] := ⟨rfl, rfl, rfl⟩
  have hsame :
      countOf .star (statementFindings settings schema (.select (.mk ctes [select] order)) t) =
        (Checker.checkQuery true c (.mk ctes [select] order)).count .selectStar := by
    apply List.countP_congr
    intro f hf
    simpa using (fits_of_mem hf).star_iff
  rw [hsame, Checker.count_checkQuery ctes [select] order hsees]
  have hnone : c.count .selectStar = 0 := rfl
  rw [hnone, Nat.zero_add]
  exact List.countP_le_length

theorem range_mem_rangesOf {b : Batch} {s : StatementText} {findings : List Finding}
    (hfits : ∀ f ∈ findings, f.Fits) {d : Diagnostic} (hd : d ∈ place b s [] findings)
    (hcode : d.code = .selectStar) : d.range ∈ rangesOf b s findings .star := by
  obtain ⟨i, hi⟩ := List.mem_iff_getElem?.mp hd
  have hcodes := congrArg (·[i]?) (codes_place b s [] findings)
  simp only [List.getElem?_map, hi, Option.map_some, hcode] at hcodes
  obtain ⟨f, hf, hfcode⟩ := Option.map_eq_some_iff.mp hcodes.symm
  have hanchor := (hfits f (List.mem_of_getElem? hf)).star_iff.mpr hfcode
  refine List.mem_map.mpr ⟨(f, d), List.mem_filter.mpr ⟨?_, by simpa using hanchor⟩, rfl⟩
  exact List.mem_of_getElem? (List.getElem?_zip_eq_some.mpr ⟨hf, hi⟩)

/-- The advice about stars in a query with one outermost `SELECT` is marked at the first spot of a
star. -/
theorem range_of_star {b : Batch} {s : StatementText} {settings : Settings} {schema : Schema}
    {ctes : List Cte} {select : Select} {order : List Expression} {d : Diagnostic}
    (hd : d ∈ place b s []
      (statementFindings settings schema (.select (.mk ctes [select] order)) s.text))
    (hcode : d.code = .selectStar) : d.range = rangeOf b s (Anchor.star.spot s.text 0) := by
  have hmem := range_mem_rangesOf (fun f hf => fits_of_mem hf) hd hcode
  have hcount := countOf_star_le settings schema ctes select order s.text
  rw [rangesOf_eq] at hmem
  obtain ⟨k, hk, hrange⟩ := List.mem_map.mp hmem
  have hzero : k = 0 := by
    rw [List.mem_range] at hk
    omega
  rw [← hrange, hzero]

/-- Where the advice about stars in a query with one outermost `SELECT` is marked: at the first
star behind the first `SELECT` of the text. If the text has an outermost list with wildcards, the
first of them at `m`, there is such a star, not behind `m`; and it is a wildcard of that list
exactly if no star stands before `m` behind the first `SELECT`. -/
theorem star_marked {b : Batch} {s : StatementText} {settings : Settings} {schema : Schema}
    {ctes : List Cte} {select : Select} {order : List Expression} {d : Diagnostic}
    (hd : d ∈ place b s []
      (statementFindings settings schema (.select (.mk ctes [select] order)) s.text))
    (hcode : d.code = .selectStar) :
    let masked := s.text.mask .identifiers
    (∀ word star, FirstFrom (wordAt "SELECT".toList) masked 0 word →
        FirstFrom starAt masked word star → d.range = rangeOf b s (star, 1)) ∧
      ∀ n m, OuterWildcard masked n m → (∀ m', OuterWildcard masked n m' → m ≤ m') →
        ∃ word star, FirstFrom (wordAt "SELECT".toList) masked 0 word ∧
          FirstFrom starAt masked word star ∧ word ≤ n ∧ star ≤ m ∧
          (OuterWildcard masked n star ↔
            ∀ other, HoldsAt starAt masked other → word ≤ other → m ≤ other) := by
  intro masked
  have hstart : IsCut masked 0 := isCut_zero masked
  constructor
  · intro word star hword hstar
    have hspot : Anchor.star.spot s.text 0 = (star, 1) :=
      Anchor.spot_of_find? (findStar?_eq hstart hword hstar)
    rw [range_of_star hd hcode, hspot]
  · intro n m hwildcard hfirst
    obtain ⟨word, hword, hfind⟩ := exists_seek_le hstart hwildcard.select (Nat.zero_le n)
    have hwords := (seek_eq_some_iff hstart).mp hfind
    have hcut : IsCut masked word := hwords.holds.isCut
    obtain ⟨star, hstar, hseek⟩ :=
      exists_seek_le hcut hwildcard.star (Nat.le_trans hword hwildcard.le)
    have hstars := (seek_eq_some_iff hcut).mp hseek
    refine ⟨word, star, hwords, hstars, hword, hstar, ?_⟩
    constructor
    · intro hmarked other hother hle
      exact Nat.le_trans (hfirst star hmarked) (hstars.le_of_holds other hother hle)
    · intro hall
      have hle := hall star hstars.holds hstars.start_le
      rwa [Nat.le_antisymm hstar hle]

/-- A wildcard behind a common table expression without a star. -/
theorem star_marked_behind_cte :
    let t : Text := "WITH x AS (SELECT Id FROM Users) SELECT * FROM x".toList
    let named (name : String) : List Source := [.mk (.table ⟨none, name.toList⟩ none) []]
    let id : Item := .value (.column ⟨none, "Id".toList⟩) none
    let x : Cte := .mk "x".toList [] (.mk [] [.mk [id] (named "Users") none [] none] [])
    let query : Query := .mk [x] [.mk [.star] (named "x") none [] none] []
    ∃ d ∈ place ⟨t, 1, 0⟩ ⟨t, 0⟩ [] (statementFindings {} plainShop (.select query) t),
      d.code = .selectStar ∧ d.range = ⟨⟨1, 41⟩, ⟨1, 42⟩⟩ ∧
        OuterWildcard (t.mask .identifiers) 33 40 ∧
        ∃ star, d.range = rangeOf ⟨t, 1, 0⟩ ⟨t, 0⟩ (star, 1) ∧
          OuterWildcard (t.mask .identifiers) 33 star := by
  intro t named id x query
  let d : Diagnostic := ⟨.selectStar, .info,
    "SELECT * returns every column; list the columns you need".toList, ⟨⟨1, 41⟩, ⟨1, 42⟩⟩, none⟩
  have hd : d ∈ place ⟨t, 1, 0⟩ ⟨t, 0⟩ [] (statementFindings {} plainShop (.select query) t) := by
    decide +kernel
  have hwildcard : OuterWildcard (t.mask .identifiers) 33 40 := by
    refine ⟨"WITH x AS (SELECT Id FROM Users) ".toList, "SELECT ".toList, " FROM x".toList, ?_⟩
    decide +kernel
  have honly : FirstFrom starAt (t.mask .identifiers) 0 40 :=
    (seek_eq_some_iff (isCut_zero _)).mp (by decide +kernel)
  obtain ⟨hrange, hmarked⟩ := star_marked (b := ⟨t, 1, 0⟩) (s := ⟨t, 0⟩) hd rfl
  obtain ⟨word, star, hword, hstar, -, -, hiff⟩ := hmarked 33 40 hwildcard
    fun m' hm' => honly.le_of_holds m' hm'.star (Nat.zero_le m')
  refine ⟨d, hd, rfl, rfl, hwildcard, star, hrange word star hword hstar, hiff.mpr ?_⟩
  intro other hother _
  exact honly.le_of_holds other hother (Nat.zero_le other)

/-- The advice is about the wildcard of the outermost list, but a star in a common table expression
is marked, and an argument in front of the wildcard. -/
theorem star_marked_elsewhere :
    let ranges (t : Text) : List (Code × Range) :=
      (validate ⟨standardParser, {}⟩ (some plainShop) t).map fun d => (d.code, d.range)
    let t : Text := "WITH x AS (SELECT * FROM Users) SELECT * FROM x".toList
    let t' : Text := "SELECT COUNT(*), * FROM Users".toList
    (ranges t = [(.selectStar, ⟨⟨1, 19⟩, ⟨1, 20⟩⟩)] ∧ OuterWildcard (t.mask .identifiers) 32 39 ∧
        ∀ n, ¬ OuterWildcard (t.mask .identifiers) n 18) ∧
      (ranges t' = [(.selectStar, ⟨⟨1, 14⟩, ⟨1, 15⟩⟩)] ∧ OuterWildcard (t'.mask .identifiers) 0 17 ∧
        ∀ n, ¬ OuterWildcard (t'.mask .identifiers) n 13) := by
  intro ranges t t'
  refine ⟨⟨by decide +kernel, ?_, ?_⟩, by decide +kernel, ?_, ?_⟩
  · refine ⟨"WITH x AS (SELECT * FROM Users) ".toList, "SELECT ".toList, " FROM x".toList, ?_⟩
    decide +kernel
  · intro n hwildcard
    exact absurd hwildcard.nesting_eq (by decide +kernel)
  · refine ⟨[], "SELECT COUNT(*), ".toList, " FROM Users".toList, ?_⟩
    decide +kernel
  · intro n hwildcard
    exact absurd hwildcard.nesting_eq (by decide +kernel)

end Validation

end SqlInsight
