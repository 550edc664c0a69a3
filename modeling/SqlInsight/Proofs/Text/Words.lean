/-
Where a word is found. A word stands where it is written in some ASCII case, unless one of its own
outer characters and the character next to it outside both may be part of a name. The search for it
goes from hit to hit: it looks for the lower-cased word in the lower-cased text, cuts out what
stands before and behind the hit, and if a name goes on there looks again, one character further. It
passes over no place where the word stands and cuts the text between characters only. So does the
search for a form of a name, which goes on in the same way where the form may not be taken.
-/
import Mathlib.Order.Bounds.Basic
import SqlInsight.Proofs.Text.Occurrences
import SqlInsight.Proofs.Text.Utf8

namespace SqlInsight.Text

/-- A text taken apart where a word is written in it, at an offset and in any ASCII case, and is not
part of a longer name. -/
structure WrittenAt (t word : Text) (n : Nat) (before own behind : Text) : Prop where
  eq : t = before ++ own ++ behind
  offset : size before = n
  same : own.sameAscii word = true
  starts : beginsName word = true → endsName before = false
  ends : endsName word = true → beginsName behind = false

def StandsAt (t word : Text) (n : Nat) : Prop :=
  ∃ before own behind, WrittenAt t word n before own behind

/-- Whether a name goes on from a word into what stands before or behind it. -/
def joins (word before behind : Text) : Bool :=
  beginsName word && endsName before || endsName word && beginsName behind

/-- How far behind a hit the search goes on: one character of the word. -/
def firstSize (word : Text) : Nat :=
  word.head?.elim 1 Char.utf8Size

theorem firstSize_pos (word : Text) : 0 < firstSize word := by
  cases word with
  | nil => exact Nat.one_pos
  | cons c rest => exact c.utf8Size_pos

/-- A text is no shorter than the offsets of its characters. -/
theorem le_size_of_isBoundary {t : Text} {n : Nat} (h : t.isBoundary n = true) : n ≤ size t := by
  obtain ⟨a, b, rfl, rfl⟩ := (isBoundary_iff_isCut n t).mp h
  rw [size_append]
  exact Nat.le_add_right (size a) (size b)

/-- The search from hit to hit for a word of lower case in a text of lower case. -/
def hop (t word : Text) (start : Nat) : Sliced (Option Nat) :=
  if t.isBoundary start then
    match find? (t.dropBytes start) word with
    | none => return none
    | some found => do
        let before ← t.sliced 0 (start + found)
        let behind ← t.sliced (start + found + word.size) t.size
        if joins word before behind then
          hop t word (start + found + firstSize word)
        else return some (start + found)
  else return none
termination_by t.size + 1 - start
decreasing_by
  have hle := le_size_of_isBoundary ‹t.isBoundary start = true›
  have hpos := firstSize_pos word
  omega

/-- The search from hit to hit for a word in a text, in any ASCII case. -/
def hopWord (t word : Text) (start : Nat) : Sliced (Option Nat) :=
  if word.isEmpty || t.size < start then return none
  else hop t.asciiLower word.asciiLower start

section Places

variable {t word : Text} {n : Nat}

/-- The test of the search holds exactly where the word stands. -/
theorem standsAt_iff_holdsAt (hword : word ≠ []) :
    StandsAt t word n ↔ HoldsAt (wordAt word) t n := by
  constructor
  · rintro ⟨before, own, behind, rfl, hoffset, hsame, hstarts, hends⟩
    have hown : own ≠ [] := by
      rintro rfl
      exact hword (List.map_eq_nil_iff.mp ((sameAscii_iff _ _).mp hsame).symm)
    refine ⟨before, own ++ behind, List.append_assoc before own behind, by simp [hown], hoffset,
      wordAt_iff.mpr ⟨own, behind, rfl, (sameAscii_iff _ _).mp hsame, ?_, ?_⟩⟩
    · exact Bool.and_eq_false_imp.mpr hstarts
    · exact Bool.and_eq_false_imp.mpr hends
  · rintro ⟨u, v, rfl, -, hsize, hholds⟩
    obtain ⟨w, rest, rfl, hsame, hstarts, hends⟩ := wordAt_iff.mp hholds
    refine ⟨u, w, rest, (List.append_assoc u w rest).symm, hsize, (sameAscii_iff w word).mpr hsame,
      ?_, ?_⟩
    · exact Bool.and_eq_false_imp.mp hstarts
    · exact Bool.and_eq_false_imp.mp hends

theorem findWord_eq_seek (hword : word ≠ []) (start : Nat) :
    findWord t word start = seek (wordAt word) start t := by
  rw [findWord, List.isEmpty_eq_false_iff.mpr hword]
  rfl

/-- A word is found at the first place, from a cut of the text on, at which it stands. -/
theorem firstFrom_of_findWord {start : Nat} (h : findWord t word start = some n) :
    IsCut t start ∧ FirstFrom (wordAt word) t start n := by
  have hword : word ≠ [] := by
    rintro rfl
    contradiction
  rw [findWord_eq_seek hword] at h
  by_cases hcut : IsCut t start
  · exact ⟨hcut, (seek_eq_some_iff hcut).mp h⟩
  · rw [seek_eq_none_of_not_isCut hcut] at h
    contradiction

end Places

section Hits

variable {t word : Text} {n : Nat}

/-- A text is found where it occurs first. -/
theorem findFrom_eq_some {offset : Nat} (h : findFrom word offset t = some n) :
    ∃ u v, t = u ++ (word ++ v) ∧ n = offset + size u ∧
      ∀ u' v', t = u' ++ (word ++ v') → size u ≤ size u' := by
  induction t generalizing offset with
  | nil =>
      rw [findFrom] at h
      split at h
      · rename_i hempty
        obtain rfl := List.isEmpty_iff.mp hempty
        exact ⟨[], [], rfl, (Option.some.inj h).symm, fun u' _ _ => Nat.zero_le (size u')⟩
      · contradiction
  | cons c rest ih =>
      rw [findFrom] at h
      split at h
      · rename_i hstarts
        obtain ⟨v, hv⟩ := startsWith_iff.mp hstarts
        exact ⟨[], v, hv.symm, (Option.some.inj h).symm, fun u' _ _ => Nat.zero_le (size u')⟩
      · rename_i hstarts
        obtain ⟨u, v, rfl, hn, hfirst⟩ := ih h
        refine ⟨c :: u, v, rfl, by rw [hn, size_cons, Nat.add_assoc], ?_⟩
        intro u' v' hsplit
        cases u' with
        | nil => exact absurd (startsWith_iff.mpr ⟨v', hsplit.symm⟩) hstarts
        | cons d u' =>
            obtain ⟨rfl, hrest⟩ := List.cons.inj hsplit
            rw [size_cons, size_cons]
            exact Nat.add_le_add_left (hfirst u' v' hrest) _

theorem findFrom_eq_none {offset : Nat} (h : findFrom word offset t = none) (u v : Text) :
    t ≠ u ++ (word ++ v) := by
  induction t generalizing offset u with
  | nil =>
      rw [findFrom] at h
      intro hnil
      have hword : word = [] := by simp_all
      rw [hword] at h
      contradiction
  | cons c rest ih =>
      rw [findFrom] at h
      split at h
      · contradiction
      · rename_i hstarts
        intro hsplit
        cases u with
        | nil => exact hstarts (startsWith_iff.mpr ⟨v, hsplit.symm⟩)
        | cons d u => exact ih h u (List.cons.inj hsplit).2

theorem joins_eq_false_iff {before behind : Text} : joins word before behind = false ↔
    (beginsName word && endsName before) = false ∧ (endsName word && beginsName behind) = false :=
  Bool.or_eq_false_iff

/-- In lower case a word stands where it occurs itself and no name goes on. -/
theorem holdsAt_iff_of_lower (ht : t.asciiLower = t) (hlower : word.asciiLower = word)
    (hword : word ≠ []) : HoldsAt (wordAt word) t n ↔
      ∃ u v, t = u ++ (word ++ v) ∧ size u = n ∧ joins word u v = false := by
  constructor
  · rintro ⟨u, v, rfl, -, hsize, hholds⟩
    obtain ⟨w, rest, rfl, hsame, hjoins⟩ := wordAt_iff.mp hholds
    obtain rfl : w = word := by
      have hw : w.asciiLower = w := by
        simp only [asciiLower, List.map_append] at ht
        exact (List.append_inj (List.append_inj ht (by simp)).2 (by simp)).1
      exact hw.symm.trans (hsame.trans hlower)
    exact ⟨u, rest, rfl, hsize, joins_eq_false_iff.mpr hjoins⟩
  · rintro ⟨u, v, rfl, hsize, hjoins⟩
    refine ⟨u, word ++ v, rfl, by simp [hword], hsize, ?_⟩
    exact wordAt_iff.mpr ⟨word, v, rfl, rfl, joins_eq_false_iff.mp hjoins⟩

theorem sliced_front (a b : Text) : (a ++ b).sliced 0 (size a) = .ok a := by
  rw [sliced_eq (isCut_zero _) ⟨a, b, rfl, rfl⟩ (Nat.zero_le _)]
  exact congrArg Except.ok (slice_of_eq (a := []) (c := b) rfl rfl rfl)

theorem sliced_back (a b : Text) : (a ++ b).sliced (size a) (size (a ++ b)) = .ok b := by
  have hle : size a ≤ size (a ++ b) := by
    rw [size_append]
    exact Nat.le_add_right _ _
  rw [sliced_eq ⟨a, b, rfl, rfl⟩ ⟨a ++ b, [], (List.append_nil _).symm, rfl⟩ hle]
  exact congrArg Except.ok (slice_of_eq (List.append_nil _).symm rfl rfl)

/-- From a hit the search goes on unless the word stands there. -/
theorem hop_of_hit {a u v : Text} (ht : t = a ++ (u ++ (word ++ v)))
    (hfind : find? (u ++ (word ++ v)) word = some (size u)) :
    hop t word (size a) =
      if joins word (a ++ u) v then hop t word (size a + size u + firstSize word)
      else .ok (some (size a + size u)) := by
  have hcut : t.isBoundary (size a) = true := (isBoundary_iff_isCut _ t).mpr ⟨a, _, ht, rfl⟩
  have hbefore : t.sliced 0 (size (a ++ u)) = .ok (a ++ u) := by
    have hsplit : t = a ++ u ++ (word ++ v) := by simp [ht]
    rw [hsplit]
    exact sliced_front _ _
  have hbehind : t.sliced (size (a ++ u ++ word)) (size t) = .ok v := by
    have hsplit : t = a ++ u ++ word ++ v := by simp [ht]
    rw [hsplit]
    exact sliced_back _ _
  rw [hop, if_pos hcut, ht, dropBytes_size_append, ← ht, hfind]
  simp only [← size_append, hbefore, hbehind, ok_bind]
  rfl

/-- Behind the start of a search a text occurs where it is hit first or behind that. -/
theorem exists_of_first {a u v u' v' : Text}
    (hfirst : ∀ x y, u ++ (word ++ v) = x ++ (word ++ y) → size u ≤ size x)
    (h : a ++ (u ++ (word ++ v)) = u' ++ (word ++ v')) (hle : size a ≤ size u') :
    ∃ x, u' = a ++ u ++ x ∧ word ++ v = x ++ (word ++ v') := by
  obtain ⟨x, rfl, hrest⟩ := exists_append_of_size_le h hle
  obtain ⟨y, rfl, hbehind⟩ := exists_append_of_size_le hrest (hfirst x v' hrest)
  exact ⟨y, (List.append_assoc a u y).symm, hbehind⟩

/-- A hit at which a name goes on is passed over, and nothing but the hit. -/
theorem seek_of_joins (ht : t.asciiLower = t) (hlower : word.asciiLower = word) (hword : word ≠ [])
    {a u v : Text} (hsplit : t = a ++ (u ++ (word ++ v)))
    (hfirst : ∀ x y, u ++ (word ++ v) = x ++ (word ++ y) → size u ≤ size x)
    (hjoins : joins word (a ++ u) v = true) :
    seek (wordAt word) (size a) t =
      seek (wordAt word) (size a + size u + firstSize word) t := by
  obtain ⟨c, rest, rfl⟩ := List.exists_cons_of_ne_nil hword
  have hnext : size a + size u + firstSize (c :: rest) = size (a ++ u ++ [c]) := by
    simp [size_append, firstSize, Nat.add_assoc]
  rw [hnext]
  apply seek_skip ⟨a, _, hsplit, rfl⟩ ⟨a ++ u ++ [c], rest ++ v, by simp [hsplit], rfl⟩
  · rw [size_append, size_append, Nat.add_assoc]
    exact Nat.le_add_right _ _
  · intro m hm hle
    obtain ⟨u', v', hsplit', rfl, hstands⟩ := (holdsAt_iff_of_lower ht hlower hword).mp hm
    obtain ⟨x, rfl, hbehind⟩ := exists_of_first hfirst (hsplit.symm.trans hsplit') hle
    cases x with
    | nil =>
        obtain rfl := List.append_cancel_left hbehind
        rw [List.append_nil, hjoins] at hstands
        contradiction
    | cons d x =>
        obtain ⟨rfl, -⟩ := List.cons.inj hbehind
        simp [size_append]

/-- The search from hit to hit finds the first place at which the word stands. -/
theorem hop_eq (ht : t.asciiLower = t) (hlower : word.asciiLower = word) (hword : word ≠ [])
    (start : Nat) : hop t word start = .ok (seek (wordAt word) start t) := by
  induction start using hop.induct t word with
  | case1 start hstart hnone =>
      have hcut := (isBoundary_iff_isCut start t).mp hstart
      rw [hop, if_pos hstart, hnone, (seek_eq_none_iff hcut).mpr]
      · rfl
      · intro m hm
        obtain ⟨u, v, hsplit, rfl, -⟩ := (holdsAt_iff_of_lower ht hlower hword).mp hm
        obtain ⟨a, b, rfl, rfl⟩ := hcut
        by_contra hle
        obtain ⟨x, -, hrest⟩ := exists_append_of_size_le hsplit (Nat.not_lt.mp hle)
        rw [dropBytes_size_append] at hnone
        exact findFrom_eq_none hnone x v hrest
  | case2 start hstart found hfound ih =>
      have hcut := (isBoundary_iff_isCut start t).mp hstart
      obtain ⟨a, b, hab, rfl⟩ := (isBoundary_iff_isCut start t).mp hstart
      rw [hab, dropBytes_size_append] at hfound
      obtain ⟨u, v, rfl, hsize, hfirst⟩ := findFrom_eq_some hfound
      obtain rfl : found = size u := hsize.trans (Nat.zero_add (size u))
      rw [hop_of_hit hab hfound]
      by_cases hjoins : joins word (a ++ u) v = true
      · rw [if_pos hjoins, ih, seek_of_joins ht hlower hword hab hfirst hjoins]
      · rw [if_neg hjoins, (seek_eq_some_iff hcut).mpr]
        refine ⟨(holdsAt_iff_of_lower ht hlower hword).mpr ⟨a ++ u, v, by simp [hab],
          size_append a u, Bool.eq_false_iff.mpr hjoins⟩, Nat.le_add_right _ _, ?_⟩
        intro m hm hle
        obtain ⟨u', v', hsplit, rfl, -⟩ := (holdsAt_iff_of_lower ht hlower hword).mp hm
        obtain ⟨x, rfl, -⟩ := exists_of_first hfirst (hab.symm.trans hsplit) hle
        rw [size_append, size_append]
        exact Nat.le_add_right _ _
  | case3 start hstart =>
      rw [hop, if_neg hstart, seek_eq_none_of_not_isCut fun hcut =>
        hstart ((isBoundary_iff_isCut start t).mpr hcut)]
      rfl

end Hits

section LowerCase

variable {word : Text}

theorem asciiLower_asciiLower (t : Text) : t.asciiLower.asciiLower = t.asciiLower := by
  rw [asciiLower, asciiLower, List.map_map]
  exact List.map_congr_left fun c _ => CaseFold.toLower_toLower c

theorem beginsName_asciiLower (t : Text) : beginsName t.asciiLower = beginsName t := by
  cases t with
  | nil => rfl
  | cons c rest => exact isName_toLower c

theorem endsName_asciiLower (t : Text) : endsName t.asciiLower = endsName t := by
  rw [endsName, asciiLower, ← List.map_reverse]
  exact beginsName_asciiLower t.reverse

theorem startsWithAscii_asciiLower (t word : Text) :
    startsWithAscii t.asciiLower word.asciiLower = startsWithAscii t word := by
  induction t, word using startsWithAscii.induct with
  | case1 t => rw [startsWithAscii]; exact startsWithAscii.eq_1 _
  | case2 w word => rfl
  | case3 c rest w word ih =>
      rw [startsWithAscii, ← ih]
      simp only [asciiLower, List.map_cons, startsWithAscii, CaseFold.toLower_toLower]

/-- Whether a word stands at a place is told in lower case as in any other. -/
theorem wordAt_asciiLower (word before rest : Text) :
    wordAt word.asciiLower before.asciiLower rest.asciiLower = wordAt word before rest := by
  have hdrop : rest.asciiLower.drop word.asciiLower.length =
      asciiLower (rest.drop word.length) := by
    simp only [asciiLower, List.length_map, List.map_drop]
  rw [wordAt, hdrop, startsWithAscii_asciiLower, beginsName_asciiLower, beginsName_asciiLower,
    endsName_asciiLower, beginsName_asciiLower, wordAt]

theorem seekFrom_asciiLower {p q : Text → Text → Bool} {start : Nat}
    (h : ∀ before rest : Text, q before.asciiLower rest.asciiLower = p before rest)
    (before : Text) (offset : Nat) (t : Text) :
    seekFrom q start before.asciiLower offset t.asciiLower = seekFrom p start before offset t := by
  induction t generalizing before offset with
  | nil => rfl
  | cons c rest ih =>
      have hcons (rest : Text) : asciiLower (c :: rest) = c.toLower :: rest.asciiLower := rfl
      rw [seekFrom, ← h, hcons, seekFrom, utf8Size_toLower, ← hcons before]
      simp only [ih]

theorem findWord_asciiLower (t word : Text) (start : Nat) :
    findWord t.asciiLower word.asciiLower start = findWord t word start := by
  rw [findWord, findWord, asciiLower, List.isEmpty_map]
  congr 1
  exact seekFrom_asciiLower (wordAt_asciiLower word) [] 0 t

end LowerCase

/-- The search from hit to hit cuts the text between characters only, and finds what the search that
tries every place finds. -/
theorem hopWord_eq (t word : Text) (start : Nat) :
    hopWord t word start = .ok (findWord t word start) := by
  rw [hopWord]
  by_cases hword : word = []
  · rw [hword]
    rfl
  · rw [List.isEmpty_eq_false_iff.mpr hword, findWord_eq_seek hword]
    by_cases hstart : size t < start
    · have hcut : ¬IsCut t start := fun hcut =>
        absurd (le_size_of_isBoundary ((isBoundary_iff_isCut start t).mpr hcut)) (by omega)
      rw [decide_eq_true hstart, seek_eq_none_of_not_isCut hcut]
      rfl
    · have hlower : word.asciiLower ≠ [] := mt List.map_eq_nil_iff.mp hword
      have hfind := findWord_asciiLower t word start
      rw [findWord_eq_seek hlower, findWord_eq_seek hword] at hfind
      rw [decide_eq_false hstart, ← hfind]
      exact hop_eq (asciiLower_asciiLower t) (asciiLower_asciiLower word) hlower start

/-- From a boundary on, the search for a word gives the least offset at which the word stands, and
nothing exactly if it stands nowhere there. The search that goes from hit to hit gives the same and
cuts the text between characters only. -/
theorem findWord_exact {t word : Text} {start : Nat} (hword : word ≠ [])
    (hstart : t.isBoundary start = true) :
    hopWord t word start = .ok (findWord t word start) ∧
      (∀ n, findWord t word start = some n ↔ IsLeast {n | start ≤ n ∧ StandsAt t word n} n) ∧
      (findWord t word start = none ↔ ∀ n, start ≤ n → ¬StandsAt t word n) := by
  have hcut := (isBoundary_iff_isCut start t).mp hstart
  have hstands (n : Nat) : StandsAt t word n ↔ HoldsAt (wordAt word) t n :=
    standsAt_iff_holdsAt hword
  refine ⟨hopWord_eq t word start, fun n => ?_, ?_⟩
  · rw [findWord_eq_seek hword, seek_eq_some_iff hcut]
    simp only [hstands]
    constructor
    · intro h
      exact ⟨⟨h.start_le, h.holds⟩, fun m hm => h.le_of_holds m hm.2 hm.1⟩
    · intro h
      exact ⟨h.1.2, h.1.1, fun m hm hle => h.2 ⟨hle, hm⟩⟩
  · rw [findWord_eq_seek hword, seek_eq_none_iff hcut]
    simp only [hstands]
    constructor
    · intro h n hle hn
      exact absurd (h n hn) (Nat.not_lt.mpr hle)
    · intro h n hn
      by_contra hle
      exact h n (Nat.not_lt.mp hle) hn

/-- The word is hit in the middle of a name, twice with a character in common, and behind a dot,
before it stands by itself in another case. -/
theorem findWord_exact_behind_hits :
    "aa".toList ≠ [] ∧ isBoundary 1 "caaa é.aaa Aa".toList = true ∧
      hopWord "caaa é.aaa Aa".toList "aa".toList 1 = .ok (some 12) ∧
      IsLeast {n | 1 ≤ n ∧ StandsAt "caaa é.aaa Aa".toList "aa".toList n} 12 := by
  have hword : "aa".toList ≠ [] := by decide
  have hstart : isBoundary 1 "caaa é.aaa Aa".toList = true := by decide +kernel
  have hfind : findWord "caaa é.aaa Aa".toList "aa".toList 1 = some 12 := by decide +kernel
  obtain ⟨hhop, hleast, -⟩ := findWord_exact hword hstart
  exact ⟨hword, hstart, by rw [hhop, hfind], (hleast 12).mp hfind⟩

section Forms

variable {masked form : Text} {qualified : Bool} {accept : Text → Bool} {start n : Nat}

/-- A word stands no earlier than the search for it starts, and in the text. -/
theorem bounds_of_findWord {t word : Text} (h : findWord t word start = some n) :
    start ≤ n ∧ n ≤ size t := by
  have hfirst := (firstFrom_of_findWord h).2
  exact ⟨hfirst.start_le,
    le_size_of_isBoundary ((isBoundary_iff_isCut n t).mpr hfirst.holds.isCut)⟩

/-- Whether a word that stands at a place may be taken for the name. -/
def isTaken (qualified : Bool) (accept : Text → Bool) (before behind : Text) : Bool :=
  (qualified || !isDottedPart before behind) && accept before

/-- The search from hit to hit of a word for a place where it may be taken for the name. -/
def hopForm (masked form : Text) (qualified : Bool) (accept : Text → Bool) (start : Nat) :
    Sliced (Option Nat) :=
  match _hhop : hopWord masked form start with
  | .error place => .error place
  | .ok none => return none
  | .ok (some found) => do
      let before ← masked.sliced 0 found
      let behind ← masked.sliced (found + form.size) masked.size
      if isTaken qualified accept before.reverse behind then return some found
      else hopForm masked form qualified accept (found + firstSize form)
termination_by masked.size + 1 - start
decreasing_by
  have hfound := (hopWord_eq masked form start).symm.trans _hhop
  have hbounds := bounds_of_findWord (Except.ok.inj hfound)
  have hpos := firstSize_pos form
  omega

/-- Whether the word stands at a place and may be taken there. -/
def takenAt (form : Text) (qualified : Bool) (accept : Text → Bool) (before rest : Text) : Bool :=
  wordAt form before rest && isTaken qualified accept before (rest.drop form.length)

theorem findForm_eq_seek (hform : form ≠ []) :
    findForm masked qualified accept start form =
      seek (takenAt form qualified accept) start masked := by
  rw [findForm, List.isEmpty_eq_false_iff.mpr hform, if_neg Bool.false_ne_true]
  congr 1
  funext before rest
  exact Bool.and_assoc _ _ _

theorem HoldsAt.of_takenAt (h : HoldsAt (takenAt form qualified accept) masked n) :
    HoldsAt (wordAt form) masked n := by
  obtain ⟨u, v, heq, hne, hsize, hholds⟩ := h
  exact ⟨u, v, heq, hne, hsize, (Bool.and_eq_true_iff.mp hholds).1⟩

theorem hopForm_of_none (h : findWord masked form start = none) :
    hopForm masked form qualified accept start = .ok none := by
  have hhop := hopWord_eq masked form start
  rw [hopForm]
  split
  · simp_all
  · rfl
  · simp_all

/-- From a place where the word stands the search goes on unless it is taken there. -/
theorem hopForm_of_some {u w rest : Text}
    (h : findWord (u ++ (w ++ rest)) form start = some (size u)) (hsize : size w = size form) :
    hopForm (u ++ (w ++ rest)) form qualified accept start =
      if isTaken qualified accept u.reverse rest then .ok (some (size u))
      else hopForm (u ++ (w ++ rest)) form qualified accept (size u + firstSize form) := by
  have hhop := hopWord_eq (u ++ (w ++ rest)) form start
  have hbehind : (u ++ (w ++ rest)).sliced (size u + size form) (size (u ++ (w ++ rest))) =
      .ok rest := by
    rw [← hsize, ← size_append, ← List.append_assoc]
    exact sliced_back _ _
  rw [hopForm]
  split
  · simp_all
  · simp_all
  · rename_i found hfound
    obtain rfl : found = size u := by
      rw [hhop, h, Except.ok.injEq, Option.some.injEq] at hfound
      exact hfound.symm
    rw [sliced_front, hbehind]
    rfl

theorem holdsAt_append_iff {p : Text → Text → Bool} {u v : Text} :
    HoldsAt p (u ++ v) (size u) ↔ v ≠ [] ∧ p u.reverse v = true := by
  constructor
  · rintro ⟨u', v', hsplit, hne, hsize, hholds⟩
    obtain rfl : u = u' := by
      rw [← takeBytes_size_append u v, ← hsize, hsplit, takeBytes_size_append]
    obtain rfl := List.append_cancel_left hsplit
    exact ⟨hne, hholds⟩
  · rintro ⟨hne, hholds⟩
    exact ⟨u, v, rfl, hne, rfl, hholds⟩

/-- If a test fails at the first place where it may hold, the search goes on one character
further. -/
theorem seek_of_not_first {p : Text → Text → Bool} {u v : Text} {c : Char}
    (hcut : IsCut (u ++ c :: v) start) (hle : start ≤ size u)
    (hfirst : ∀ m, HoldsAt p (u ++ c :: v) m → start ≤ m → size u ≤ m)
    (hnot : ¬HoldsAt p (u ++ c :: v) (size u)) :
    seek p start (u ++ c :: v) = seek p (size u + c.utf8Size) (u ++ c :: v) := by
  have hnext : size u + c.utf8Size = size (u ++ [c]) := by simp [size_append]
  apply seek_skip hcut ⟨u ++ [c], v, by simp, hnext⟩ (Nat.le_add_right_of_le hle)
  intro m hm hstart
  obtain ⟨u', v', hsplit, rfl⟩ := hm.isCut
  obtain ⟨x, rfl, hrest⟩ := exists_append_of_size_le hsplit (hfirst _ hm hstart)
  cases x with
  | nil => exact absurd hm (by rwa [List.append_nil])
  | cons d x =>
      obtain ⟨rfl, -⟩ := List.cons.inj hrest
      rw [size_append, size_cons]
      omega

theorem firstSize_of_same {w : Text} (h : w.map Char.toLower = form.map Char.toLower) :
    firstSize w = firstSize form := by
  cases w with
  | nil => rw [List.map_eq_nil_iff.mp h.symm]
  | cons d w =>
      obtain ⟨c, rest, rfl⟩ := List.exists_cons_of_ne_nil (l := form) (by
        rintro rfl
        contradiction)
      show d.utf8Size = c.utf8Size
      rw [← utf8Size_toLower d, ← utf8Size_toLower c, (List.cons.inj h).1]

/-- The first place where the word stands is the one that is sought if it may be taken there, and is
passed over otherwise. -/
theorem seek_takenAt {u w rest : Text} (hform : form ≠ [])
    (hcut : IsCut (u ++ (w ++ rest)) start)
    (hfirst : FirstFrom (wordAt form) (u ++ (w ++ rest)) start (size u))
    (hsame : w.map Char.toLower = form.map Char.toLower) :
    seek (takenAt form qualified accept) start (u ++ (w ++ rest)) =
      if isTaken qualified accept u.reverse rest then some (size u)
      else seek (takenAt form qualified accept) (size u + firstSize form) (u ++ (w ++ rest)) := by
  have hdrop : (w ++ rest).drop form.length = rest := by
    have hlength : form.length = w.length := by simpa using (congrArg List.length hsame).symm
    rw [hlength, List.drop_left]
  have hle (m : Nat) (hm : HoldsAt (takenAt form qualified accept) (u ++ (w ++ rest)) m)
      (hstart : start ≤ m) : size u ≤ m := hfirst.le_of_holds m hm.of_takenAt hstart
  obtain ⟨hne, hholds⟩ := holdsAt_append_iff.mp hfirst.holds
  split
  · rename_i htaken
    rw [seek_eq_some_iff hcut]
    refine ⟨holdsAt_append_iff.mpr ⟨hne, ?_⟩, hfirst.start_le, hle⟩
    rw [takenAt, hholds, hdrop, htaken]
    rfl
  · rename_i htaken
    have hnot : ¬HoldsAt (takenAt form qualified accept) (u ++ (w ++ rest)) (size u) := by
      intro hthere
      have hboth := (holdsAt_append_iff.mp hthere).2
      rw [takenAt, hdrop] at hboth
      exact htaken (Bool.and_eq_true_iff.mp hboth).2
    rw [← firstSize_of_same hsame]
    obtain ⟨c, w, rfl⟩ := List.exists_cons_of_ne_nil (l := w) (by
      rintro rfl
      exact hform (List.map_eq_nil_iff.mp hsame.symm))
    exact seek_of_not_first hcut hfirst.start_le hle hnot

/-- The search from hit to hit finds the place that the search that tries every place finds. -/
theorem hopForm_eq (masked form : Text) (qualified : Bool) (accept : Text → Bool) (start : Nat) :
    hopForm masked form qualified accept start =
      .ok (findForm masked qualified accept start form) := by
  by_cases hform : form = []
  · have hword : findWord masked form start = none := by rw [hform]; rfl
    have hnone : findForm masked qualified accept start form = none := by rw [hform]; rfl
    rw [hopForm_of_none hword, hnone]
  induction start using hopForm.induct masked form with
  | case1 start place hhop =>
      rw [hopWord_eq] at hhop
      contradiction
  | case2 start hhop =>
      rw [hopWord_eq, Except.ok.injEq] at hhop
      rw [hopForm_of_none hhop, findForm_eq_seek hform]
      by_cases hcut : IsCut masked start
      · rw [findWord_eq_seek hform, seek_eq_none_iff hcut] at hhop
        rw [(seek_eq_none_iff hcut).mpr fun n h => hhop n h.of_takenAt]
      · rw [seek_eq_none_of_not_isCut hcut]
  | case3 start found hhop ih =>
      rw [hopWord_eq, Except.ok.injEq] at hhop
      obtain ⟨hcut, hfirst⟩ := firstFrom_of_findWord hhop
      obtain ⟨u, v, rfl, -, rfl, hholds⟩ := hfirst.holds
      obtain ⟨w, rest, rfl, hsame, -⟩ := wordAt_iff.mp hholds
      have hsize : size w = size form := by rw [← size_map_toLower, hsame, size_map_toLower]
      rw [hopForm_of_some hhop hsize, ih, findForm_eq_seek hform, findForm_eq_seek hform,
        seek_takenAt hform hcut hfirst hsame]
      split
      · rfl
      · rfl

end Forms

end SqlInsight.Text
