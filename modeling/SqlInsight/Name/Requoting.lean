/-
Requoting bracketed names for dialects without brackets: every one outside literals and comments, or
only those of a pair that a dot joins. All other text is copied as it stands.
-/
import SqlInsight.Name.Quoting

namespace SqlInsight.Name

/-- A text whose characters know their regions. -/
abbrev Marked := List (Char × Region)

def Marked.text (t : Marked) : Text :=
  t.map Prod.fst

/-- A character as the mask of literals and comments leaves it. -/
def shown (c : Char × Region) : Char :=
  if c.2.isMasked .literals then (if c.1 = '\n' then '\n' else ' ') else c.1

/-- Split at the first `]` that is not doubled, reading characters through `view`: what stands
before it and what follows it. -/
def closeBracket (view : Char × Region → Char) : Marked → Option (Marked × Marked)
  | [] => none
  | [c] => if view c = ']' then some ([], []) else none
  | c :: d :: rest =>
      if view c = ']' then
        if view d = ']' then
          (closeBracket view rest).map fun (inner, more) => (c :: d :: inner, more)
        else some ([], d :: rest)
      else (closeBracket view (d :: rest)).map fun (inner, more) => (c :: inner, more)

theorem closeBracket_length {view : Char × Region → Char} {t inner more : Marked}
    (h : closeBracket view t = some (inner, more)) : more.length < t.length := by
  fun_induction closeBracket view t generalizing inner with
  | case1 => simp at h
  | case2 c hc => simp at h; simp [← h.2]
  | case3 c hc => simp at h
  | case4 c d rest hc hd ih =>
    obtain ⟨⟨i, m⟩, hi, he⟩ := Option.map_eq_some_iff.1 h
    simp only [Prod.mk.injEq] at he
    obtain ⟨-, rfl⟩ := he
    have := ih hi
    simp only [List.length_cons]
    omega
  | case5 c d rest hc hd => simp at h; simp [← h.2]
  | case6 c d rest hc ih =>
    obtain ⟨⟨i, m⟩, hi, he⟩ := Option.map_eq_some_iff.1 h
    simp only [Prod.mk.injEq] at he
    obtain ⟨-, rfl⟩ := he
    have := ih hi
    simp only [List.length_cons] at this ⊢
    omega

/-- Split at the first `]` that is not doubled, or else at the last doubled one, of which the second
character is left over. -/
def closeBracketAnyhow (view : Char × Region → Char) : Marked → Option (Marked × Marked)
  | [] => none
  | [c] => if view c = ']' then some ([], []) else none
  | c :: d :: rest =>
      if view c = ']' then
        if view d = ']' then
          match closeBracketAnyhow view rest with
          | some (inner, more) => some (c :: d :: inner, more)
          | none => some ([], d :: rest)
        else some ([], d :: rest)
      else (closeBracketAnyhow view (d :: rest)).map fun (inner, more) => (c :: inner, more)

theorem closeBracketAnyhow_length {view : Char × Region → Char} {t inner more : Marked}
    (h : closeBracketAnyhow view t = some (inner, more)) : more.length < t.length := by
  fun_induction closeBracketAnyhow view t generalizing inner more with
  | case1 => simp at h
  | case2 c hc => simp at h; simp [← h.2]
  | case3 c hc => simp at h
  | case4 c d rest hc hd i m hi ih =>
    simp only [Option.some.injEq, Prod.mk.injEq] at h
    obtain ⟨-, rfl⟩ := h
    have := ih hi
    simp only [List.length_cons]
    omega
  | case5 c d rest hc hd hi ih => simp at h; simp [← h.2]
  | case6 c d rest hc hd => simp at h; simp [← h.2]
  | case7 c d rest hc ih =>
    obtain ⟨⟨i, m⟩, hi, he⟩ := Option.map_eq_some_iff.1 h
    simp only [Prod.mk.injEq] at he
    obtain ⟨-, rfl⟩ := he
    have := ih hi
    simp only [List.length_cons] at this ⊢
    omega

def requoteMarked (quote : Char) (t : Marked) : Text :=
  match t with
  | [] => []
  | c :: rest =>
      if shown c = '[' then
        match h : closeBracket Prod.fst rest with
        | none => c.1 :: Marked.text rest
        | some (inner, more) =>
            have := closeBracket_length h
            render quote (Marked.text inner) ++ requoteMarked quote more
      else c.1 :: requoteMarked quote rest
termination_by t.length
decreasing_by
  · simp only [List.length_cons]
    omega
  · simp

/-- Requote every bracketed name outside literals and comments. -/
def requoteAll (quote : Char) (t : Text) : Text :=
  requoteMarked quote t.regions

def skipBlanks (t : Marked) : Marked :=
  t.dropWhile fun c => CharClass.isBlank (shown c)

/-- Read a bracketed name that is not empty and that `close` ends: its inside, and what follows
it. -/
def bracketed? (close : Marked → Option (Marked × Marked)) : Marked → Option (Marked × Marked)
  | [] => none
  | c :: rest =>
      if shown c = '[' then
        match close rest with
        | some (inner, more) => if inner.isEmpty then none else some (inner, more)
        | none => none
      else none

/-- Read two bracketed names joined by a dot: their insides, and what follows them. Only the second
may end in the middle of a doubled bracket, because no dot follows there. -/
def bracketedPair? (t : Marked) : Option (Marked × Marked × Marked) :=
  match bracketed? (closeBracket shown) t with
  | none => none
  | some (first, more) =>
      match skipBlanks more with
      | [] => none
      | dot :: more =>
          if shown dot = '.' then
            (bracketed? (closeBracketAnyhow shown) (skipBlanks more)).map fun (second, more) =>
              (first, second, more)
          else none

theorem skipBlanks_length (t : Marked) : (skipBlanks t).length ≤ t.length :=
  (List.dropWhile_sublist _).length_le

theorem bracketed?_length {close : Marked → Option (Marked × Marked)} {t inner more : Marked}
    (hclose : ∀ {rest inner more : Marked},
      close rest = some (inner, more) → more.length < rest.length)
    (h : bracketed? close t = some (inner, more)) : more.length < t.length := by
  unfold bracketed? at h
  split at h
  · simp at h
  · split at h
    · split at h
      · rename_i hc
        split at h
        · simp at h
        · simp only [Option.some.injEq, Prod.mk.injEq] at h
          obtain ⟨rfl, rfl⟩ := h
          have := hclose hc
          simp only [List.length_cons]
          omega
      · simp at h
    · simp at h

theorem bracketedPair?_length {t first second more : Marked}
    (h : bracketedPair? t = some (first, second, more)) : more.length < t.length := by
  unfold bracketedPair? at h
  split at h
  · simp at h
  · rename_i f m hb
    have h1 := bracketed?_length closeBracket_length hb
    have h2 := skipBlanks_length m
    split at h
    · simp at h
    · rename_i d m' hs
      split at h
      · obtain ⟨⟨i, m2⟩, hi, he⟩ := Option.map_eq_some_iff.1 h
        simp only [Prod.mk.injEq] at he
        obtain ⟨-, -, rfl⟩ := he
        have h3 := bracketed?_length closeBracketAnyhow_length hi
        have h4 := skipBlanks_length m'
        rw [hs] at h2
        simp only [List.length_cons] at h2
        omega
      · simp at h

/-- Requote the dotted pairs of bracketed names of a marked text. -/
def requotePairsMarked (quote : Char) (t : Marked) : Text :=
  match h : bracketedPair? t with
  | some (first, second, more) =>
      have := bracketedPair?_length h
      render quote (Marked.text first) ++ '.' :: render quote (Marked.text second)
        ++ requotePairsMarked quote more
  | none =>
      match t with
      | [] => []
      | c :: rest => c.1 :: requotePairsMarked quote rest
termination_by t.length
decreasing_by
  · assumption
  · simp

/-- Requote only the pairs of bracketed names that a dot joins. -/
def requotePairs (quote : Char) (t : Text) : Text :=
  requotePairsMarked quote t.regions

end SqlInsight.Name
