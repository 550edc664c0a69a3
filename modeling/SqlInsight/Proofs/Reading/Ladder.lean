/-
The ladder of strategies without its memory. What has been tried has failed, and a parser answers
the same question always alike, so skipping an attempt made before skips a failure: the ladder finds
the first strategy that succeeds by itself. The strict reading and the one for structure differ only
in the strategies that put a table at the end of the text.
-/
import SqlInsight.Reading

namespace SqlInsight

namespace Ladder

variable {l : Ladder} {t : Text}

/-- What a strategy reads from a text by itself, with no memory of other attempts. -/
def attempt? (l : Ladder) (t : Text) (s : Strategy) : Option Reading :=
  match l.prepare? s t with
  | none => none
  | some prepared =>
      match l.parser (l.dialect s.role) prepared with
      | .ok statements => some ⟨statements, s⟩
      | .error _ => none

/-- Whether all that has been tried has failed. -/
def AllFailed (l : Ladder) (tried : List (Dialect × Text)) : Prop :=
  ∀ attempt ∈ tried, ∃ e, l.parser attempt.1 attempt.2 = .error e

theorem AllFailed.nil (l : Ladder) : l.AllFailed [] :=
  fun _ h => absurd h List.not_mem_nil

theorem AllFailed.cons {tried : List (Dialect × Text)} (h : l.AllFailed tried)
    {attempt : Dialect × Text} {e : SyntaxError}
    (hfail : l.parser attempt.1 attempt.2 = .error e) : l.AllFailed (attempt :: tried) := by
  intro a ha
  rcases List.mem_cons.mp ha with rfl | hmem
  · exact ⟨e, hfail⟩
  · exact h a hmem

theorem attempt?_of_prepare?_eq_none {s : Strategy} (h : l.prepare? s t = none) :
    l.attempt? t s = none := by
  rw [attempt?, h]

theorem attempt?_of_ok {s : Strategy} {prepared : Text} {statements : List Outline.Statement}
    (h : l.prepare? s t = some prepared)
    (hok : l.parser (l.dialect s.role) prepared = .ok statements) :
    l.attempt? t s = some ⟨statements, s⟩ := by
  simp only [attempt?, h, hok]

theorem attempt?_of_error {s : Strategy} {prepared : Text} {e : SyntaxError}
    (h : l.prepare? s t = some prepared)
    (herror : l.parser (l.dialect s.role) prepared = .error e) : l.attempt? t s = none := by
  simp only [attempt?, h, herror]

theorem strategy_of_attempt? {s : Strategy} {r : Reading} (h : l.attempt? t s = some r) :
    r.strategy = s := by
  unfold attempt? at h
  split at h
  · contradiction
  · split at h
    · rw [← Option.some.inj h]
    · contradiction

/-- Skipping what has failed before skips failures only. -/
theorem climb_eq_findSome? {tried : List (Dialect × Text)} (h : l.AllFailed tried)
    (ss : List Strategy) : l.climb t tried ss = ss.findSome? (l.attempt? t) := by
  induction ss generalizing tried with
  | nil => rfl
  | cons s rest ih =>
      rw [climb, List.findSome?_cons]
      cases hprepare : l.prepare? s t with
      | none => rw [attempt?_of_prepare?_eq_none hprepare, ih h]
      | some prepared =>
          dsimp only
          by_cases htried : (tried.contains (l.dialect s.role, prepared)) = true
          · obtain ⟨e, herror⟩ := h _ (List.contains_iff_mem.mp htried)
            rw [if_pos htried, attempt?_of_error hprepare herror, ih h]
          · rw [if_neg htried]
            cases hparse : l.parser (l.dialect s.role) prepared with
            | ok statements => rw [attempt?_of_ok hprepare hparse]
            | error e => rw [attempt?_of_error hprepare hparse, ih (h.cons hparse)]

/-- The last strategy reads the text itself in the primary dialect. -/
theorem attempt?_verbatim (l : Ladder) (t : Text) :
    l.attempt? t ⟨.verbatim, .primary⟩ =
      (l.parser l.primary t).toOption.map (Reading.mk · ⟨.verbatim, .primary⟩) := by
  have hprepare : l.prepare? ⟨.verbatim, .primary⟩ t = some t := rfl
  cases hparse : l.parser l.primary t with
  | ok statements => exact attempt?_of_ok hprepare hparse
  | error e => exact attempt?_of_error hprepare hparse

theorem verbatim_mem_strictStrategies : ⟨.verbatim, .primary⟩ ∈ strictStrategies := by decide

/-- When no strict strategy succeeds the primary dialect refuses the text itself. -/
theorem exists_error_of_findSome?_eq_none
    (h : strictStrategies.findSome? (l.attempt? t) = none) :
    ∃ e, l.parser l.primary t = .error e := by
  have hverbatim := List.findSome?_eq_none_iff.mp h _ verbatim_mem_strictStrategies
  rw [attempt?_verbatim] at hverbatim
  cases hparse : l.parser l.primary t with
  | ok statements => simp [hparse, Except.toOption] at hverbatim
  | error e => exact ⟨e, rfl⟩

theorem readStrictly_eq_ok_iff (l : Ladder) (t : Text) (r : Reading) :
    l.readStrictly t = .ok r ↔ strictStrategies.findSome? (l.attempt? t) = some r := by
  rw [readStrictly, climb_eq_findSome? (AllFailed.nil l)]
  cases hfirst : strictStrategies.findSome? (l.attempt? t) with
  | some reading => simp
  | none =>
      obtain ⟨e, herror⟩ := exists_error_of_findSome?_eq_none hfirst
      simp [herror]

theorem readStrictly_eq_error_iff (l : Ladder) (t : Text) (e : SyntaxError) :
    l.readStrictly t = .error e ↔
      (∀ s ∈ strictStrategies, l.attempt? t s = none) ∧ l.parser l.primary t = .error e := by
  rw [readStrictly, climb_eq_findSome? (AllFailed.nil l), ← List.findSome?_eq_none_iff]
  cases hfirst : strictStrategies.findSome? (l.attempt? t) with
  | some reading => simp
  | none =>
      obtain ⟨failure, herror⟩ := exists_error_of_findSome?_eq_none hfirst
      simp [herror]

/-- A text is read for its structure by the plain ladder, unless it is blank or left open. -/
theorem read?_eq (l : Ladder) (t : Text) :
    l.read? t =
      if t.isBlank ∨ (t.openTail?.isSome ∧ t.hasCte = false) then none
      else strategies.findSome? (l.attempt? t) := by
  rw [read?, climb_eq_findSome? (AllFailed.nil l)]
  by_cases hblank : t.isBlank = true
  · simp [hblank]
  · simp [hblank]

theorem read?_eq_none_iff (l : Ladder) (t : Text) :
    l.read? t = none ↔
      t.isBlank ∨ (t.openTail?.isSome ∧ t.hasCte = false) ∨
        ∀ s ∈ strategies, l.attempt? t s = none := by
  rw [read?_eq, ← List.findSome?_eq_none_iff, ← or_assoc]
  split <;> simp_all

theorem findSome?_of_read? {r : Reading} (h : l.read? t = some r) :
    strategies.findSome? (l.attempt? t) = some r := by
  rw [read?_eq] at h
  split at h
  · contradiction
  · exact h

theorem hasPlaceholder_of_attempt? {s : Strategy} {r : Reading} (h : l.attempt? t s = some r) :
    r.hasPlaceholder = (s.preparation == .placeholder) := by
  rw [Reading.hasPlaceholder, strategy_of_attempt? h]

/-- The strategies before those that put a table at the end. -/
def earlyStrategies : List Strategy :=
  strategies.takeWhile (·.preparation != .placeholder)

theorem strategies_eq : strategies = earlyStrategies ++
    ([⟨.placeholder, .primary⟩, ⟨.placeholder, .fallback⟩] ++ [⟨.verbatim, .primary⟩]) := rfl

theorem strictStrategies_eq : strictStrategies = earlyStrategies ++ [⟨.verbatim, .primary⟩] := rfl

/-- The first success of all strategies is the first strict one, or it has a table at the end and
the text itself is what can still be read strictly. -/
theorem findSome?_strategies_cases {r : Reading}
    (h : strategies.findSome? (l.attempt? t) = some r) :
    strictStrategies.findSome? (l.attempt? t) = some r ∨
      r.hasPlaceholder = true ∧
        strictStrategies.findSome? (l.attempt? t) = l.attempt? t ⟨.verbatim, .primary⟩ := by
  rw [strategies_eq, List.findSome?_append, List.findSome?_append] at h
  rw [strictStrategies_eq, List.findSome?_append, List.findSome?_singleton]
  rw [List.findSome?_singleton] at h
  cases hearly : earlyStrategies.findSome? (l.attempt? t) with
  | some early =>
      rw [hearly] at h
      exact Or.inl h
  | none =>
      rw [hearly, Option.none_or] at h
      rw [Option.none_or]
      cases hplaced : [(⟨.placeholder, .primary⟩ : Strategy), ⟨.placeholder, .fallback⟩].findSome?
          (l.attempt? t) with
      | none =>
          rw [hplaced, Option.none_or] at h
          exact Or.inl h
      | some placed =>
          rw [hplaced, Option.some_or] at h
          obtain ⟨s, hs, hattempt⟩ := List.exists_of_findSome?_eq_some hplaced
          rw [Option.some.inj h] at hattempt
          refine Or.inr ⟨?_, rfl⟩
          rw [hasPlaceholder_of_attempt? hattempt]
          simp only [List.mem_cons, List.not_mem_nil, or_false] at hs
          rcases hs with rfl | rfl <;> rfl

/-- A reading for structure without a table at the end is the strict one. -/
theorem readStrictly_of_read? {r : Reading} (h : l.read? t = some r)
    (hwritten : r.hasPlaceholder = false) : l.readStrictly t = .ok r := by
  rw [readStrictly_eq_ok_iff]
  rcases findSome?_strategies_cases (findSome?_of_read? h) with hstrict | ⟨hplaced, -⟩
  · exact hstrict
  · rw [hwritten] at hplaced
    contradiction

/-- Two readings of one text differ only if one has a table at the end and the other is that of the
text itself. -/
theorem strategy_of_read?_ne {r r' : Reading} (h : l.read? t = some r)
    (h' : l.readStrictly t = .ok r') (hne : r ≠ r') :
    r.hasPlaceholder = true ∧ r'.strategy = ⟨.verbatim, .primary⟩ := by
  rw [readStrictly_eq_ok_iff] at h'
  rcases findSome?_strategies_cases (findSome?_of_read? h) with hstrict | ⟨hplaced, hverbatim⟩
  · exact absurd (Option.some.inj (hstrict.symm.trans h')) hne
  · exact ⟨hplaced, strategy_of_attempt? (hverbatim.symm.trans h')⟩

/-- Both ways to read a text are those of the plain ladder, in which every strategy prepares and
reads the text by itself. The memory of what has failed changes no result. A text is read strictly
by the first strict strategy that succeeds, and is refused only as the primary dialect refuses the
text itself; it has no reading for its structure only if it is blank, left open without a common
table expression, or refused by every strategy. The two readings are the same one, unless that for
structure has a table at the end and the strict one is that of the text itself. -/
theorem reads_plain_ladder (l : Ladder) (t : Text) :
    (∀ ss, l.climb t [] ss = ss.findSome? (l.attempt? t)) ∧
      (∀ r, l.readStrictly t = .ok r ↔ strictStrategies.findSome? (l.attempt? t) = some r) ∧
      (∀ e, l.readStrictly t = .error e ↔
        (∀ s ∈ strictStrategies, l.attempt? t s = none) ∧ l.parser l.primary t = .error e) ∧
      (l.climb t [] strictStrategies = none → ∃ e, l.parser l.primary t = .error e) ∧
      (l.read? t = none ↔
        t.isBlank ∨ (t.openTail?.isSome ∧ t.hasCte = false) ∨
          ∀ s ∈ strategies, l.attempt? t s = none) ∧
      (∀ r, l.read? t = some r → r.hasPlaceholder = false → l.readStrictly t = .ok r) ∧
      ∀ r r', l.read? t = some r → l.readStrictly t = .ok r' → r ≠ r' →
        r.hasPlaceholder = true ∧ r'.strategy = ⟨.verbatim, .primary⟩ := by
  refine ⟨climb_eq_findSome? (AllFailed.nil l), readStrictly_eq_ok_iff l t,
    readStrictly_eq_error_iff l t, fun hclimb => ?_, read?_eq_none_iff l t,
    fun r => readStrictly_of_read?, fun r r' => strategy_of_read?_ne⟩
  rw [climb_eq_findSome? (AllFailed.nil l)] at hclimb
  exact exists_error_of_findSome?_eq_none hclimb

end Ladder

end SqlInsight
