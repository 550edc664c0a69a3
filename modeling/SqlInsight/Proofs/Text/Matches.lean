/-
Identifiers at the start of a text, and repeated searches in it. The identifiers that a text may
begin with are all identifiers in front of something. A repeated search goes on behind what it
found, so whatever could be found at a place is found, unless the search has gone over the place.
-/
import SqlInsight.Proofs.Text.CaseFold
import SqlInsight.Proofs.Text.Pattern

namespace SqlInsight.Text

section Identifiers

variable {t name run rest : Text}

/-- What stands for an ASCII letter when case is ignored is part of a word. -/
theorem isWord_of_isLetter {letter c : Char} (hletter : CharClass.isWord letter = true)
    (h : isLetter letter c = true) : CharClass.isWord c = true := by
  simp only [isLetter, Bool.or_eq_true, Bool.and_eq_true, beq_iff_eq] at h
  have hcode {n : Nat} (hn : CharClass.isWord (Char.ofNat n) = true) (hc : c.toNat = n) :
      CharClass.isWord c = true := by
    rwa [← hc, Char.ofNat_toNat] at hn
  rcases h with (hlower | ⟨-, hlong⟩) | ⟨-, hkelvin⟩
  · have hfold : CharClass.isWord c.toLower = CharClass.isWord c :=
      CaseFold.apply_toLower (by decide) c
    rwa [← hfold, hlower]
  · exact hcode (by decide +kernel) hlong
  · exact hcode (by decide +kernel) hkelvin

/-- A character that is no letter of a word ends what is read of the word. -/
theorem afterWord?_append_stop {word : Text} {c : Char}
    (hc : ∀ letter ∈ word, isLetter letter c = false) (u t : Text) :
    afterWord? word (u ++ c :: t) = (afterWord? word u).map (· ++ c :: t) := by
  induction word generalizing u with
  | nil => rfl
  | cons letter word ih =>
      cases u with
      | nil => simp [afterWord?, hc letter List.mem_cons_self]
      | cons d u =>
          rw [List.cons_append, afterWord?, afterWord?]
          split
          · exact ih (fun l hl => hc l (List.mem_cons_of_mem letter hl)) u
          · rfl

theorem dropWhile_append_stop {p : Char → Bool} {c : Char} (hc : p c = false) (x s : Text) :
    (x ++ c :: s).dropWhile p = x.dropWhile p ++ c :: s := by
  induction x with
  | nil => exact List.dropWhile_cons_of_neg (by simp [hc])
  | cons d x ih =>
      by_cases hd : p d = true
      · rw [List.cons_append, List.dropWhile_cons_of_pos hd, List.dropWhile_cons_of_pos hd, ih]
      · rw [List.cons_append, List.dropWhile_cons_of_neg hd, List.dropWhile_cons_of_neg hd,
          List.cons_append]

theorem takeWhile_append_cons {p : Char → Bool} {c : Char} (hc : p c = false) (x s : Text) :
    (x ++ c :: s).takeWhile p = x.takeWhile p := by
  induction x with
  | nil => exact List.takeWhile_cons_of_neg (by simp [hc])
  | cons d x ih =>
      by_cases hd : p d = true
      · rw [List.cons_append, List.takeWhile_cons_of_pos hd, List.takeWhile_cons_of_pos hd, ih]
      · rw [List.cons_append, List.takeWhile_cons_of_neg hd, List.takeWhile_cons_of_neg hd]

theorem trimStart_append_stop {c : Char} (hc : CharClass.isBlank c = false) (x s : Text) :
    trimStart (x ++ c :: s) = trimStart x ++ c :: s :=
  dropWhile_append_stop hc x s

theorem afterBlanks?_append_stop {c : Char} (hc : CharClass.isBlank c = false) (x s : Text) :
    afterBlanks? (x ++ c :: s) = (afterBlanks? x).map (· ++ c :: s) := by
  cases x with
  | nil => simp [afterBlanks?, hc]
  | cons d x =>
      rw [afterBlanks?, afterBlanks?, trimStart_append_stop hc]
      split <;> simp_all

theorem afterWord?_asciiLower (w rest : Text) :
    afterWord? (asciiLower w) (w ++ rest) = some rest := by
  induction w with
  | nil => rfl
  | cons c w ih =>
      have hletter : isLetter c.toLower c = true := by simp [isLetter]
      change (if isLetter c.toLower c = true then _ else none) = some rest
      rw [if_pos hletter]
      exact ih

theorem afterFirst?_append {c : Char} {a : Text} (h : c ∉ a) (b : Text) :
    afterFirst? c (a ++ c :: b) = some b := by
  induction a with
  | nil => simp [afterFirst?]
  | cons d rest ih =>
      have hd : d ≠ c := fun heq => h (heq ▸ List.mem_cons_self)
      rw [List.cons_append, afterFirst?, if_neg hd]
      exact ih fun hmem => h (List.mem_cons_of_mem d hmem)

theorem eq_append_of_afterFirst? {c : Char} {t rest : Text} (h : afterFirst? c t = some rest) :
    ∃ a, t = a ++ c :: rest ∧ c ∉ a := by
  induction t with
  | nil => simp [afterFirst?] at h
  | cons d more ih =>
      rw [afterFirst?] at h
      split at h
      · rename_i hd
        exact ⟨[], by rw [hd, Option.some.inj h]; rfl, List.not_mem_nil⟩
      · rename_i hd
        obtain ⟨a, rfl, ha⟩ := ih h
        refine ⟨d :: a, rfl, fun hmem => ?_⟩
        rcases List.mem_cons.mp hmem with rfl | hmem
        · exact hd rfl
        · exact ha hmem

/-- Whether a text is one identifier as the patterns take it: in delimiters and not empty, or
bare. -/
def isIdentifier (t : Text) : Bool :=
  identifier? t == some (t, [])

theorem takeWhile_append_stop {p : Char → Bool} (hrun : ∀ c ∈ run, p c = true)
    (hrest : ∀ c ∈ rest.head?, p c = false) : List.takeWhile p (run ++ rest) = run := by
  rw [List.takeWhile_append_of_pos hrun]
  cases rest with
  | nil => rw [List.takeWhile_nil, List.append_nil]
  | cons c more =>
      have hc : ¬p c = true := by simp [hrest c rfl]
      rw [List.takeWhile_cons, if_neg hc, List.append_nil]

theorem takeWhile_ne_append {closing : Char} {inner : Text} (h : closing ∉ inner) (rest : Text) :
    List.takeWhile (· != closing) (inner ++ closing :: rest) = inner := by
  refine takeWhile_append_stop (fun c hc => ?_) fun c hc => ?_
  · rw [bne_iff_ne]
    rintro rfl
    exact h hc
  · obtain rfl := Option.some.inj hc
    exact bne_self_eq_false _

theorem delimited?_append (opening : Char) {closing : Char} {inner : Text} (hne : inner ≠ [])
    (hinner : closing ∉ inner) (rest : Text) :
    delimited? opening closing (inner ++ closing :: rest) =
      some (opening :: inner ++ [closing], rest) := by
  simp only [delimited?, takeWhile_ne_append hinner, List.drop_left,
    List.isEmpty_eq_false_iff.mpr hne,
    Bool.false_eq_true, if_false]

theorem beginsIdentifier_bracket : beginsIdentifier '[' = false := by
  decide

theorem beginsIdentifier_quote : beginsIdentifier '"' = false := by
  decide

theorem beginsIdentifier_ne {c : Char} (h : beginsIdentifier c = true) : c ≠ '[' ∧ c ≠ '"' := by
  constructor <;> rintro rfl
  · simp [beginsIdentifier_bracket] at h
  · simp [beginsIdentifier_quote] at h

/-- A bare identifier goes on as long as its characters do. -/
theorem identifier?_bare {c : Char} (hfirst : beginsIdentifier c = true)
    (hrun : ∀ d ∈ run, continuesIdentifier d = true)
    (hrest : ∀ d ∈ rest.head?, continuesIdentifier d = false) :
    identifier? (c :: run ++ rest) = some (c :: run, rest) := by
  obtain ⟨hbracket, hquote⟩ := beginsIdentifier_ne hfirst
  rw [List.cons_append, identifier?, if_neg hbracket, if_neg hquote, if_pos hfirst]
  simp only [takeWhile_append_stop hrun hrest, List.drop_left]

theorem identifier?_bracketed {inner : Text} (hne : inner ≠ []) (hinner : ']' ∉ inner)
    (rest : Text) :
    identifier? ('[' :: inner ++ ']' :: rest) = some ('[' :: inner ++ [']'], rest) :=
  delimited?_append '[' hne hinner rest

theorem identifier?_quoted {inner : Text} (hne : inner ≠ []) (hinner : '"' ∉ inner) (rest : Text) :
    identifier? ('"' :: inner ++ '"' :: rest) = some ('"' :: inner ++ ['"'], rest) :=
  delimited?_append '"' hne hinner rest

theorem isIdentifier_iff : isIdentifier t = true ↔
    IsIdentifier t ∧ t ≠ "[]".toList ∧ t ≠ ['"', '"'] := by
  rw [isIdentifier, beq_iff_eq]
  constructor
  · intro h
    refine ⟨(eq_append_of_identifier? h).2, ?_, ?_⟩ <;> rintro rfl <;> exact absurd h (by decide)
  · rintro ⟨ht, hbracket, hquote⟩
    cases ht with
    | @bare c more hfirst hmore =>
        have hend : ∀ d ∈ (([] : Text)).head?, continuesIdentifier d = false := by simp
        have hfound := identifier?_bare hfirst hmore hend
        rwa [List.append_nil] at hfound
    | @bracketed inner hinner =>
        refine identifier?_bracketed ?_ hinner []
        rintro rfl
        exact hbracket rfl
    | @quoted inner hinner =>
        refine identifier?_quoted ?_ hinner []
        rintro rfl
        exact hquote rfl

theorem mem_prefixesOf : (name, rest) ∈ prefixesOf run t ↔
    name ≠ [] ∧ ∃ more, run = name ++ more ∧ rest = more ++ t := by
  simp only [prefixesOf, List.mem_map, List.mem_range, Prod.mk.injEq]
  constructor
  · rintro ⟨n, hn, rfl, rfl⟩
    refine ⟨?_, _, (List.take_append_drop _ _).symm, rfl⟩
    rw [ne_eq, List.take_eq_nil_iff]
    rintro (hzero | rfl)
    · omega
    · exact absurd hn (Nat.not_lt_zero n)
  · rintro ⟨hne, more, rfl, rfl⟩
    have hpos := List.length_pos_of_ne_nil hne
    have hlength : (name ++ more).length - more.length = name.length := by
      rw [List.length_append, Nat.add_sub_cancel]
    refine ⟨more.length, by rw [List.length_append]; omega, ?_, ?_⟩
    · rw [hlength, List.take_left]
    · rw [hlength, List.drop_left]

/-- The longer parts come first: those that reach into the second of two runs. -/
theorem prefixesOf_append (a b t : Text) : prefixesOf (a ++ b) t =
    (prefixesOf b t).map (fun x => (a ++ x.1, x.2)) ++ prefixesOf a (b ++ t) := by
  rw [prefixesOf, List.length_append, Nat.add_comm, List.range_add, List.map_append, List.map_map,
    prefixesOf, List.map_map, prefixesOf]
  congr 1
  · apply List.map_congr_left
    intro n hn
    have hn : n < b.length := List.mem_range.mp hn
    have hlength : (b.length + a.length) - n = a.length + (b.length - n) := by omega
    simp only [Function.comp_apply, hlength, List.take_length_add_append,
      List.drop_length_add_append]
  · apply List.map_congr_left
    intro n hn
    have hlength : (b.length + a.length) - (b.length + n) = a.length - n := by omega
    have hle : a.length - n ≤ a.length := Nat.sub_le _ _
    simp only [Function.comp_apply, hlength, List.take_append_of_le_length hle,
      List.drop_append_of_le_length hle, List.append_assoc]

/-- What a bare identifier begins with is one as well. -/
theorem isIdentifier_of_mem_prefixesOf {c : Char} (hfirst : beginsIdentifier c = true)
    (hrun : ∀ d ∈ run, continuesIdentifier d = true) (h : (name, rest) ∈ prefixesOf (c :: run) t) :
    isIdentifier name = true := by
  obtain ⟨hne, more, hsplit, -⟩ := mem_prefixesOf.mp h
  cases name with
  | nil => contradiction
  | cons d shorter =>
      obtain ⟨rfl, rfl⟩ := List.cons.inj hsplit
      have hshorter : ∀ e ∈ shorter, continuesIdentifier e = true :=
        fun e he => hrun e (List.mem_append_left more he)
      have hend : ∀ e ∈ (([] : Text)).head?, continuesIdentifier e = false := by simp
      have hfound := identifier?_bare hfirst hshorter hend
      rw [List.append_nil] at hfound
      rw [isIdentifier, hfound, beq_self_eq_true]

/-- Of a bare identifier any part from its start may be taken. -/
theorem identifiers_bare {c : Char} (hfirst : beginsIdentifier c = true)
    (hrun : ∀ d ∈ run, continuesIdentifier d = true)
    (hrest : ∀ d ∈ rest.head?, continuesIdentifier d = false) :
    identifiers (c :: run ++ rest) = prefixesOf (c :: run) rest := by
  have hany : (c :: run ++ rest).head?.any beginsIdentifier = true := hfirst
  unfold identifiers
  simp only [identifier?_bare hfirst hrun hrest, if_pos hany]

theorem identifiers_of_delimited {c : Char} (hc : beginsIdentifier c = false)
    (h : identifier? (c :: t) = some (name, rest)) : identifiers (c :: t) = [(name, rest)] := by
  have hany : ¬(c :: t).head?.any beginsIdentifier = true := by simp [hc]
  unfold identifiers
  simp only [h, if_neg hany]

/-- Behind all the characters that go on with an identifier nothing does. -/
theorem continuesIdentifier_of_mem_head?_dropWhile (t : Text) :
    ∀ d ∈ (t.dropWhile continuesIdentifier).head?, continuesIdentifier d = false := by
  intro d hd
  have hhead := List.head?_dropWhile_not continuesIdentifier t
  rw [Option.mem_def.mp hd] at hhead
  simpa using hhead

/-- Behind the longest bare identifier nothing goes on with it. -/
theorem head?_of_identifier?_bare {c : Char} (hfirst : beginsIdentifier c = true)
    (h : identifier? (c :: t) = some (name, rest)) :
    ∀ d ∈ rest.head?, continuesIdentifier d = false := by
  obtain ⟨hbracket, hquote⟩ := beginsIdentifier_ne hfirst
  rw [identifier?, if_neg hbracket, if_neg hquote, if_pos hfirst] at h
  obtain ⟨-, rfl⟩ := Prod.mk.inj (Option.some.inj h)
  rw [drop_length_takeWhile]
  exact continuesIdentifier_of_mem_head?_dropWhile t

theorem continuesIdentifier_of_isIdentifier {c : Char} (hfirst : beginsIdentifier c = true)
    (h : isIdentifier (c :: t) = true) : ∀ d ∈ t, continuesIdentifier d = true := by
  cases (isIdentifier_iff.mp h).1 with
  | bare _ hmore => exact hmore
  | bracketed => exact absurd rfl (beginsIdentifier_ne hfirst).1
  | quoted => exact absurd rfl (beginsIdentifier_ne hfirst).2

theorem isIdentifier_of_identifier? (h : identifier? t = some (name, rest)) :
    t = name ++ rest ∧ isIdentifier name = true := by
  obtain ⟨rfl, hidentifier⟩ := eq_append_of_identifier? h
  refine ⟨rfl, isIdentifier_iff.mpr ⟨hidentifier, ?_, ?_⟩⟩ <;> rintro rfl <;>
    simp [identifier?, delimited?] at h

theorem isIdentifier_of_mem_identifiers (h : (name, rest) ∈ identifiers t) :
    isIdentifier name = true := by
  unfold identifiers at h
  cases hfound : identifier? t with
  | none => simp [hfound] at h
  | some found =>
      obtain ⟨run, behind⟩ := found
      obtain ⟨rfl, hrun⟩ := isIdentifier_of_identifier? hfound
      simp only [hfound] at h
      split at h
      · rename_i hany
        cases (isIdentifier_iff.mp hrun).1 with
        | bare hfirst hmore => exact isIdentifier_of_mem_prefixesOf hfirst hmore h
        | bracketed hinner => exact absurd hany (by simp [beginsIdentifier_bracket])
        | quoted hinner => exact absurd hany (by simp [beginsIdentifier_quote])
      · obtain ⟨rfl, rfl⟩ := Prod.mk.inj (List.mem_singleton.mp h)
        exact hrun

/-- A bare identifier may be taken from the start of any text, since what goes on behind it belongs
to the longest identifier there. -/
theorem mem_identifiers_bare {c : Char} {more : Text} (hfirst : beginsIdentifier c = true)
    (hmore : ∀ d ∈ more, continuesIdentifier d = true) (rest : Text) :
    (c :: more, rest) ∈ identifiers (c :: more ++ rest) := by
  have hsplit : rest = rest.takeWhile continuesIdentifier ++ rest.dropWhile continuesIdentifier :=
    List.takeWhile_append_dropWhile.symm
  have hall : ∀ d ∈ more ++ rest.takeWhile continuesIdentifier,
      continuesIdentifier d = true := by
    intro d hd
    rcases List.mem_append.mp hd with hd | hd
    · exact hmore d hd
    · exact List.mem_takeWhile_imp hd
  have hfound := identifiers_bare hfirst hall (continuesIdentifier_of_mem_head?_dropWhile rest)
  rw [← List.cons_append, List.append_assoc, ← hsplit] at hfound
  rw [hfound, mem_prefixesOf]
  exact ⟨List.cons_ne_nil c more, _, rfl, hsplit⟩

/-- A text may be taken to begin with an identifier if it is an identifier in front of
something. -/
theorem mem_identifiers_iff : (name, rest) ∈ identifiers t ↔
    t = name ++ rest ∧ isIdentifier name = true := by
  refine ⟨fun h => ⟨eq_append_of_mem_identifiers h, isIdentifier_of_mem_identifiers h⟩, ?_⟩
  rintro ⟨rfl, hname⟩
  obtain ⟨hidentifier, hbracket, hquote⟩ := isIdentifier_iff.mp hname
  cases hidentifier with
  | bare hfirst hmore => exact mem_identifiers_bare hfirst hmore rest
  | @bracketed inner hinner =>
      have hne : inner ≠ [] := by
        rintro rfl
        exact hbracket rfl
      have hfound := identifiers_of_delimited beginsIdentifier_bracket
        (identifier?_bracketed hne hinner rest)
      rw [List.append_assoc, List.singleton_append]
      exact hfound ▸ List.mem_singleton_self _
  | @quoted inner hinner =>
      have hne : inner ≠ [] := by
        rintro rfl
        exact hquote rfl
      have hfound := identifiers_of_delimited beginsIdentifier_quote
        (identifier?_quoted hne hinner rest)
      rw [List.append_assoc, List.singleton_append]
      exact hfound ▸ List.mem_singleton_self _

end Identifiers

section Matches

variable {α : Type} {find : Option Char → Text → Option (α × Nat)} {before : Option Char}

theorem getLast?_cons_or (c : Char) (u : Text) (before : Option Char) :
    (c :: u).getLast?.or before = u.getLast?.or (some c) := by
  rw [List.getLast?_cons]
  cases u.getLast? <;> rfl

/-- Something is found first if it is found anywhere. -/
theorem isSome_firstMatch?_iff {β : Type} {find : Option Char → Text → Option β}
    {before : Option Char} {t : Text} : (firstMatch? find before t).isSome = true ↔
      ∃ u v, t = u ++ v ∧ (find (u.getLast?.or before) v).isSome = true := by
  induction t generalizing before with
  | nil =>
      rw [firstMatch?]
      constructor
      · exact fun h => ⟨[], [], rfl, h⟩
      · rintro ⟨u, v, huv, h⟩
        obtain ⟨rfl, rfl⟩ := List.append_eq_nil_iff.mp huv.symm
        exact h
  | cons c rest ih =>
      rw [firstMatch?, Option.isSome_or, Bool.or_eq_true, ih]
      constructor
      · rintro (h | ⟨u, v, rfl, h⟩)
        · exact ⟨[], c :: rest, rfl, h⟩
        · exact ⟨c :: u, v, rfl, by rwa [getLast?_cons_or]⟩
      · rintro ⟨u, v, huv, h⟩
        cases u with
        | nil =>
            rw [List.nil_append] at huv
            exact Or.inl (huv ▸ h)
        | cons d u =>
            obtain ⟨rfl, rfl⟩ := List.cons.inj huv
            rw [getLast?_cons_or] at h
            exact Or.inr ⟨u, v, rfl, h⟩

/-- What is to be skipped makes no difference but for what stands before the rest. -/
theorem matchesFrom_skip (find : Option Char → Text → Option (α × Nat)) (before : Option Char)
    (a b : Text) :
    matchesFrom find before a.length (a ++ b) = matchesFrom find (a.getLast?.or before) 0 b := by
  induction a generalizing before with
  | nil => rfl
  | cons c rest ih =>
      rw [List.cons_append, List.length_cons, matchesFrom, ih, getLast?_cons_or]

/-- Where nothing is found, the search goes on behind. -/
theorem matchesFrom_append_of_none {a : Text} (b : Text)
    (h : ∀ u c v, a = u ++ c :: v → find (u.getLast?.or before) (c :: v ++ b) = none) :
    matchesFrom find before 0 (a ++ b) = matchesFrom find (a.getLast?.or before) 0 b := by
  induction a generalizing before with
  | nil => rfl
  | cons c rest ih =>
      have hhere : find before (c :: rest ++ b) = none := h [] c rest rfl
      rw [List.cons_append] at hhere ⊢
      rw [matchesFrom, hhere]
      rw [getLast?_cons_or]
      apply ih
      intro u d v huv
      have hfind := h (c :: u) d v (by rw [huv]; rfl)
      rwa [getLast?_cons_or] at hfind

/-- Where nothing is found, the search for what comes first goes on behind as well. -/
theorem firstMatch?_append_of_none {β : Type} {find : Option Char → Text → Option β} {a : Text}
    (b : Text) (h : ∀ u c v, a = u ++ c :: v → find (u.getLast?.or before) (c :: v ++ b) = none) :
    firstMatch? find before (a ++ b) = firstMatch? find (a.getLast?.or before) b := by
  induction a generalizing before with
  | nil => rfl
  | cons c rest ih =>
      have hhere : find before (c :: rest ++ b) = none := h [] c rest rfl
      rw [List.cons_append] at hhere ⊢
      rw [firstMatch?, hhere, Option.none_or, getLast?_cons_or]
      apply ih
      intro u d v huv
      have hfind := h (c :: u) d v (by rw [huv]; rfl)
      rwa [getLast?_cons_or] at hfind

/-- Nothing is found in a text if nothing is found at any of its places. -/
theorem matchesFrom_eq_nil_iff {t : Text} : matchesFrom find before 0 t = [] ↔
    ∀ u c v, t = u ++ c :: v → find (u.getLast?.or before) (c :: v) = none := by
  constructor
  · intro h
    induction t generalizing before with
    | nil =>
        intro u c v huv
        exact absurd huv.symm (by simp)
    | cons d rest ih =>
        rw [matchesFrom] at h
        intro u c v huv
        cases hfind : find before (d :: rest) with
        | some found => simp [hfind] at h
        | none =>
            rw [hfind] at h
            cases u with
            | nil =>
                rw [List.nil_append] at huv
                rw [← huv]
                exact hfind
            | cons e u =>
                obtain ⟨rfl, hrest⟩ := List.cons.inj huv
                rw [getLast?_cons_or]
                exact ih h u c v hrest
  · intro h
    have hnone := matchesFrom_append_of_none [] (by simpa using h)
    rwa [List.append_nil] at hnone

/-- What is found comes first, and the search goes on behind it. -/
theorem matchesFrom_append_of_some {a : Text} {x : α} (b : Text) (hne : a ≠ [])
    (h : find before (a ++ b) = some (x, a.length)) :
    matchesFrom find before 0 (a ++ b) = x :: matchesFrom find a.getLast? 0 b := by
  cases a with
  | nil => contradiction
  | cons c rest =>
      rw [List.cons_append] at h ⊢
      rw [matchesFrom, h]
      simp only [List.length_cons, Nat.add_sub_cancel]
      rw [matchesFrom_skip, ← getLast?_cons_or c rest none, Option.or_none]

theorem matchesFrom_append_cons_of_some {a : Text} {c : Char} {x : α} (b : Text)
    (h : find before (a ++ c :: b) = some (x, a.length + 1)) :
    matchesFrom find before 0 (a ++ c :: b) = x :: matchesFrom find (some c) 0 b := by
  have happend : a ++ c :: b = a ++ [c] ++ b := by simp
  rw [happend, ← List.length_concat (a := c), List.concat_eq_append] at h
  rw [happend, matchesFrom_append_of_some b (by simp) h, List.getLast?_concat]

/-- Whether a search that has gone on from `before` finds something in front of a cut of the text
that goes over the cut. -/
def Covers (find : Option Char → Text → Option (α × Nat)) (before : Option Char) (u v : Text)
    (x : α) : Prop :=
  ∃ u₁ u₂ n, u = u₁ ++ u₂ ∧ u₂ ≠ [] ∧ find (u₁.getLast?.or before) (u₂ ++ v) = some (x, n) ∧
    u₂.length < n

theorem Covers.cons {u v : Text} {x : α} {c : Char} (h : Covers find (some c) u v x)
    (before : Option Char) : Covers find before (c :: u) v x := by
  obtain ⟨u₁, u₂, n, rfl, hne, hfind, hlength⟩ := h
  refine ⟨c :: u₁, u₂, n, rfl, hne, ?_, hlength⟩
  rwa [getLast?_cons_or]

theorem mem_matchesFrom_or_covers {u v : Text} {x : α} {n : Nat} (hv : v ≠ [])
    (h : find (u.getLast?.or before) v = some (x, n)) {skip : Nat} (hskip : skip ≤ u.length) :
    x ∈ matchesFrom find before skip (u ++ v) ∨
      ∃ y ∈ matchesFrom find before skip (u ++ v), Covers find before u v y := by
  induction u generalizing before skip with
  | nil =>
      obtain rfl := Nat.le_zero.mp hskip
      cases v with
      | nil => contradiction
      | cons c rest =>
          change find before (c :: rest) = some (x, n) at h
          left
          rw [List.nil_append, matchesFrom, h]
          exact List.mem_cons_self
  | cons c u ih =>
      rw [getLast?_cons_or] at h
      rw [List.cons_append]
      cases skip with
      | succ skip =>
          rw [matchesFrom]
          rcases ih h (Nat.le_of_succ_le_succ hskip) with hmem | ⟨y, hy, hcovers⟩
          · exact Or.inl hmem
          · exact Or.inr ⟨y, hy, hcovers.cons before⟩
      | zero =>
          rw [matchesFrom]
          cases hfind : find before (c :: (u ++ v)) with
          | none =>
              rcases ih h (Nat.zero_le _) with hmem | ⟨y, hy, hcovers⟩
              · exact Or.inl hmem
              · exact Or.inr ⟨y, hy, hcovers.cons before⟩
          | some found =>
              obtain ⟨z, m⟩ := found
              simp only
              by_cases hm : m - 1 ≤ u.length
              · rcases ih h hm with hmem | ⟨y, hy, hcovers⟩
                · exact Or.inl (List.mem_cons_of_mem z hmem)
                · exact Or.inr ⟨y, List.mem_cons_of_mem z hy, hcovers.cons before⟩
              · refine Or.inr ⟨z, List.mem_cons_self, [], c :: u, m, rfl, List.cons_ne_nil c u,
                  hfind, ?_⟩
                rw [List.length_cons]
                omega

/-- What could be found at a place is found, unless something that is found goes over the place. -/
theorem mem_allMatches_or_covers {u v : Text} {x : α} {n : Nat} (hv : v ≠ [])
    (h : find u.getLast? v = some (x, n)) :
    x ∈ allMatches find (u ++ v) ∨ ∃ y ∈ allMatches find (u ++ v), Covers find none u v y := by
  rw [← Option.or_none (o := u.getLast?)] at h
  exact mem_matchesFrom_or_covers hv h (Nat.zero_le _)

end Matches

end SqlInsight.Text
