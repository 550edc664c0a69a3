/-
A text cut where the scan returns to code or leaves it. Its lexemes are the runs of code, the
literals, the delimited identifiers and the comments, in order. A delimited identifier right behind
another one is a lexeme of its own, so a run of equal regions may hold several.
-/
import SqlInsight.Proofs.Text.Scan

namespace SqlInsight

/-- A region with the depth of its nesting forgotten. -/
def Region.kind : Region → Region
  | .blockComment _ => .blockComment 1
  | r => r

theorem Region.kind_eq_bracketed {r : Region} (h : r.kind = .bracketed) : r = .bracketed := by
  cases r <;> simp_all [kind]

namespace ScanState

/-- Whether the scan stands in a region of this kind, and a two-character token that it is midway
through keeps to that kind or ends it. -/
def Within (kind : Region) : ScanState → Prop
  | inside r => r.kind = kind
  | midway r next => r.kind = kind ∧ r ≠ .code ∧ (next = .code ∨ next.kind = kind)

theorem within_start : start.Within .code := rfl

/-- A character either belongs to the code, and the scan stands in code behind it, or to a region
that it opens or that the scan stands in. That region goes on behind it unless it ends there. -/
theorem step_cases {s : ScanState} {kind : Region} (hs : s.Within kind) (c : Char)
    (next : Option Char) :
    s.step c next = (.code, start) ∨
      ((s.step c next).1 ≠ .code ∧ (s = start ∨ (s.step c next).1.kind = kind) ∧
        ((s.step c next).2 = start ∨ (s.step c next).2.Within (s.step c next).1.kind)) := by
  cases s with
  | midway region after =>
      obtain ⟨hkind, hregion, hafter⟩ := hs
      refine Or.inr ⟨hregion, Or.inr hkind, ?_⟩
      rcases hafter with rfl | hsame
      · exact Or.inl rfl
      · exact Or.inr (hsame.trans hkind.symm)
  | inside region =>
      obtain rfl : region.kind = kind := hs
      cases region <;>
        simp only [step, stepCode, stepDelimited, stepBlock] <;> split_ifs <;>
        simp_all [start, Within, Region.kind]

theorem step_bracketed {s : ScanState} {kind : Region} (hs : s.Within kind)
    (hkind : kind ≠ .bracketed) {c : Char} {next : Option Char}
    (h : (s.step c next).1 = .bracketed) :
    c = '[' ∧ s.step c next = (.bracketed, inside .bracketed) := by
  rcases step_cases hs c next with hcode | ⟨-, hopens, -⟩
  · rw [hcode] at h
    contradiction
  · rcases hopens with rfl | hsame
    · simp only [start, step, stepCode] at h ⊢
      split_ifs at h ⊢
      simp_all
    · rw [h] at hsame
      exact absurd hsame.symm hkind

/-- Behind a character the scan stands in code or in a region of the kind of that character. -/
theorem exists_within_step {s : ScanState} {kind : Region} (hs : s.Within kind) (c : Char)
    (next : Option Char) : ∃ kind', (kind' = .code ∨ kind' = (s.step c next).1.kind) ∧
      (s.step c next).2.Within kind' := by
  rcases step_cases hs c next with hcode | ⟨-, -, hends | hwithin⟩
  · rw [hcode]
    exact ⟨.code, Or.inl rfl, within_start⟩
  · rw [hends]
    exact ⟨.code, Or.inl rfl, within_start⟩
  · exact ⟨_, Or.inr rfl, hwithin⟩

end ScanState

namespace Text

open ScanState

/-- Whether a lexeme ends behind a character of region `r`. `next` is where the scan stands then,
`after` the region of the character that follows. -/
def endsLexeme (r : Region) (next : ScanState) (after : Option Region) : Bool :=
  if r = .code then after ≠ some .code else next = .start || after = some .code

/-- Put a character at the front of the first lexeme. -/
def attach (x : Char × Region) : List (List (Char × Region)) → List (List (Char × Region))
  | [] => [[x]]
  | lexeme :: more => (x :: lexeme) :: more

/-- The lexemes of a text that is scanned from `s`, with the region of every character. -/
def lexemesFrom (s : ScanState) : Text → List (List (Char × Region))
  | [] => []
  | c :: rest =>
      let (r, next) := s.step c rest.head?
      if endsLexeme r next ((regionsFrom next rest).head?.map Prod.snd) then
        [(c, r)] :: lexemesFrom next rest
      else attach (c, r) (lexemesFrom next rest)

def lexemes (t : Text) : List (List (Char × Region)) :=
  lexemesFrom .start t

theorem lexemesFrom_cons (s : ScanState) (c : Char) (rest : Text) :
    lexemesFrom s (c :: rest) =
      if endsLexeme (s.step c rest.head?).1 (s.step c rest.head?).2
          ((regionsFrom (s.step c rest.head?).2 rest).head?.map Prod.snd) then
        [(c, (s.step c rest.head?).1)] :: lexemesFrom (s.step c rest.head?).2 rest
      else attach (c, (s.step c rest.head?).1) (lexemesFrom (s.step c rest.head?).2 rest) := rfl

theorem flatten_attach (x : Char × Region) (lexemes : List (List (Char × Region))) :
    (attach x lexemes).flatten = x :: lexemes.flatten := by
  cases lexemes <;> rfl

theorem flatten_lexemesFrom (s : ScanState) (t : Text) :
    (lexemesFrom s t).flatten = regionsFrom s t := by
  induction t generalizing s with
  | nil => rfl
  | cons c rest ih =>
      rw [lexemesFrom_cons, regionsFrom_cons]
      split
      · rw [List.flatten_cons, ih]
        rfl
      · rw [flatten_attach, ih]

theorem flatten_lexemes (t : Text) : t.lexemes.flatten = t.regions :=
  flatten_lexemesFrom start t

theorem exists_lexemesFrom_cons (s : ScanState) (c : Char) (rest : Text) :
    ∃ lexeme more, lexemesFrom s (c :: rest) =
      ((c, (s.step c rest.head?).1) :: lexeme) :: more := by
  rw [lexemesFrom_cons]
  split
  · exact ⟨[], _, rfl⟩
  · cases lexemesFrom (s.step c rest.head?).2 rest with
    | nil => exact ⟨[], [], rfl⟩
    | cons lexeme more => exact ⟨lexeme, more, rfl⟩

/-- A lexeme goes on behind a character only with a region of its kind. -/
theorem kind_eq_of_not_endsLexeme {s : ScanState} {kind : Region} (hs : s.Within kind)
    {c d : Char} {rest : Text}
    (h : ¬endsLexeme (s.step c (some d)).1 (s.step c (some d)).2
      (some ((s.step c (some d)).2.step d rest.head?).1) = true) :
    ((s.step c (some d)).2.step d rest.head?).1.kind = (s.step c (some d)).1.kind := by
  rcases step_cases hs c (some d) with hcode | ⟨hne, -, hnext⟩
  · rw [hcode] at h ⊢
    have hafter : (start.step d rest.head?).1 = .code := by simpa [endsLexeme] using h
    rw [hafter]
  · rw [endsLexeme, if_neg hne] at h
    obtain ⟨hstart, hafter⟩ : (s.step c (some d)).2 ≠ start ∧
        ((s.step c (some d)).2.step d rest.head?).1 ≠ .code := by simpa using h
    rcases step_cases (hnext.resolve_left hstart) d rest.head? with hcode | ⟨-, hopens, -⟩
    · rw [hcode] at hafter
      contradiction
    · exact hopens.resolve_left hstart

def SameKind (lexeme : List (Char × Region)) : Prop :=
  ∃ kind, ∀ x ∈ lexeme, x.2.kind = kind

theorem sameKind_singleton (x : Char × Region) : SameKind [x] :=
  ⟨x.2.kind, by simp⟩

theorem SameKind.cons {x y : Char × Region} {lexeme : List (Char × Region)}
    (h : SameKind (y :: lexeme)) (hxy : y.2.kind = x.2.kind) : SameKind (x :: y :: lexeme) := by
  obtain ⟨kind, hkind⟩ := h
  refine ⟨kind, fun z hz => ?_⟩
  rcases List.mem_cons.mp hz with rfl | hz
  · rw [← hxy]
    exact hkind y List.mem_cons_self
  · exact hkind z hz

theorem sameKind_of_mem_lexemesFrom {s : ScanState} {kind : Region} (hs : s.Within kind)
    {t : Text} {lexeme : List (Char × Region)} (h : lexeme ∈ lexemesFrom s t) :
    SameKind lexeme := by
  induction t generalizing s kind lexeme with
  | nil => contradiction
  | cons c rest ih =>
      obtain ⟨kind', -, hnext⟩ := exists_within_step hs c rest.head?
      rw [lexemesFrom_cons] at h
      split at h
      · rcases List.mem_cons.mp h with rfl | hmem
        · exact sameKind_singleton _
        · exact ih hnext hmem
      · rename_i hgoes
        cases rest with
        | nil =>
            obtain rfl := List.mem_singleton.mp h
            exact sameKind_singleton _
        | cons d rest =>
            rw [List.head?_cons] at h hnext hgoes
            obtain ⟨first, more, hmore⟩ :=
              exists_lexemesFrom_cons (s.step c (some d)).2 d rest
            rw [hmore, attach] at h
            rcases List.mem_cons.mp h with rfl | hmem
            · apply SameKind.cons
              · exact ih hnext (hmore ▸ List.mem_cons_self)
              · exact kind_eq_of_not_endsLexeme hs hgoes
            · exact ih hnext (hmore ▸ List.mem_cons_of_mem _ hmem)

/-- A lexeme is code, or of one kind of literal, delimited identifier or comment. -/
theorem sameKind_of_mem_lexemes {t : Text} {lexeme : List (Char × Region)}
    (h : lexeme ∈ t.lexemes) : SameKind lexeme :=
  sameKind_of_mem_lexemesFrom within_start h

end Text

end SqlInsight
