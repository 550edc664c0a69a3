/-
What the searches of a SQL text find. A search stops at a cut of the text behind which something
stands; masks keep the size of a text, so what is found in one lies within the text. Whether a word
stands at a place of the first of two texts does not depend on the second, unless a name goes on
across the seam; and of the text before a word only the last character counts.
-/
import SqlInsight.Proofs.Text.CaseFold
import SqlInsight.Proofs.Text.Cut
import SqlInsight.Text.Search

namespace SqlInsight.Text

section Found

variable {p : Text → Text → Bool} {t : Text} {start n : Nat}

theorem size_mask (m : Mask) (t : Text) : size (t.mask m) = size t := by
  rw [mask_eq_maskOf, size_maskOf, map_fst_regions]

/-- What is sought is found at a cut, and not at the end of the text. -/
theorem exists_of_seekFrom {before : Text} {offset : Nat}
    (h : seekFrom p start before offset t = some n) :
    ∃ a c b, t = a ++ c :: b ∧ n = offset + size a ∧ p (a.reverse ++ before) (c :: b) = true := by
  induction t generalizing before offset with
  | nil => simp [seekFrom] at h
  | cons c rest ih =>
      have hbehind (hrest : seekFrom p start (c :: before) (offset + c.utf8Size) rest = some n) :
          ∃ a d b, c :: rest = a ++ d :: b ∧ n = offset + size a ∧
            p (a.reverse ++ before) (d :: b) = true := by
        obtain ⟨a, d, b, rfl, hn, hp⟩ := ih hrest
        refine ⟨c :: a, d, b, rfl, ?_, ?_⟩
        · rw [hn, size_cons, Nat.add_assoc]
        · rwa [List.reverse_cons, List.append_assoc]
      rw [seekFrom] at h
      split at h
      · dsimp only at h
        split at h
        · contradiction
        · exact hbehind h
      · split at h
        · rename_i hp
          exact ⟨[], c, rest, rfl, (Option.some.inj h).symm, hp⟩
        · exact hbehind h

theorem exists_of_seek (h : seek p start t = some n) :
    ∃ a c b, t = a ++ c :: b ∧ n = size a ∧ p a.reverse (c :: b) = true := by
  obtain ⟨a, c, b, ht, hn, hp⟩ := exists_of_seekFrom h
  rw [Nat.zero_add] at hn
  rw [List.append_nil] at hp
  exact ⟨a, c, b, ht, hn, hp⟩

theorem size_lt_size_append_cons (a : Text) (c : Char) (b : Text) :
    size a < size (a ++ c :: b) := by
  have hpos := c.utf8Size_pos
  rw [size_append, size_cons]
  omega

theorem lt_size_of_seek (h : seek p start t = some n) : n < size t := by
  obtain ⟨a, c, b, rfl, rfl, -⟩ := exists_of_seek h
  exact size_lt_size_append_cons a c b

theorem exists_of_findWord {word : Text} (h : findWord t word start = some n) :
    ∃ a c b, t = a ++ c :: b ∧ n = size a := by
  unfold findWord at h
  split at h
  · contradiction
  · obtain ⟨a, c, b, ht, hn, -⟩ := exists_of_seek h
    exact ⟨a, c, b, ht, hn⟩

theorem lt_size_of_findWord {word : Text} (h : findWord t word start = some n) : n < size t := by
  obtain ⟨a, c, b, rfl, rfl⟩ := exists_of_findWord h
  exact size_lt_size_append_cons a c b

theorem contains_singleton_iff {c : Char} : t.contains [c] = true ↔ c ∈ t := by
  rw [contains, Option.isSome_iff_exists]
  constructor
  · rintro ⟨n, hfind⟩
    obtain ⟨a, b, rfl, -, -⟩ := exists_of_find? hfind
    simp
  · intro hmem
    by_contra hnone
    rw [not_exists] at hnone
    obtain ⟨a, b, rfl, ha⟩ := List.eq_append_cons_of_mem hmem
    apply hnone (size a)
    rw [find?_append ha]
    simp [find?, findFrom, startsWith]

theorem lt_size_of_find? {c : Char} (h : find? t [c] = some n) : n < size t := by
  obtain ⟨a, b, rfl, -, rfl⟩ := exists_of_find? h
  exact size_lt_size_append_cons a c b

theorem lt_size_of_findForm {masked form : Text} {qualified : Bool} {accept : Text → Bool}
    (h : findForm masked qualified accept start form = some n) : n < size masked := by
  unfold findForm at h
  split at h
  · contradiction
  · exact lt_size_of_seek h

/-- An identifier is written within the text. -/
theorem lt_size_of_locateIdentifierFrom {qualifier : Option Text} {name : Text}
    {accept : Text → Bool} {spot : Nat × Nat}
    (h : locateIdentifierFrom t qualifier name start accept = some spot) : spot.1 < size t := by
  unfold locateIdentifierFrom at h
  obtain ⟨form, -, hform⟩ := List.exists_of_findSome?_eq_some h
  obtain ⟨offset, hfind, rfl⟩ := Option.map_eq_some_iff.mp hform
  rw [← size_mask .literals t]
  exact lt_size_of_findForm hfind

end Found

section Words

/-- In no place of a text that follows `before`, which is given in reverse, does the word stand. -/
def Lacks (word before t : Text) : Prop :=
  ∀ u v, t = u ++ v → v ≠ [] → wordAt word (u.reverse ++ before) v = false

variable {word before a b : Text}

theorem isName_toLower (c : Char) : CharClass.isName c.toLower = CharClass.isName c :=
  CaseFold.apply_toLower (by decide +kernel) c

theorem sameAscii_iff (a b : Text) :
    a.sameAscii b = true ↔ a.map Char.toLower = b.map Char.toLower :=
  beq_iff_eq

theorem startsWithAscii_iff {t : Text} : startsWithAscii t word = true ↔
    ∃ w rest, t = w ++ rest ∧ w.map Char.toLower = word.map Char.toLower := by
  induction word generalizing t with
  | nil => exact iff_of_true (by cases t <;> rfl) ⟨[], t, rfl, rfl⟩
  | cons d word ih =>
      cases t with
      | nil => exact iff_of_false (by simp [startsWithAscii]) (by rintro ⟨w, rest, hw, h⟩; simp_all)
      | cons c t =>
          rw [startsWithAscii, Bool.and_eq_true, beq_iff_eq, ih]
          constructor
          · rintro ⟨hc, w, rest, rfl, hw⟩
            exact ⟨c :: w, rest, rfl, by rw [List.map_cons, hc, hw, List.map_cons]⟩
          · rintro ⟨w, rest, ht, hw⟩
            cases w with
            | nil => contradiction
            | cons c' w =>
                obtain ⟨rfl, rfl⟩ := List.cons.inj ht
                obtain ⟨hc, hrest⟩ := List.cons.inj hw
                exact ⟨hc, w, rest, rfl, hrest⟩

/-- A word stands where it is written in some case, and no name goes on before or behind it. -/
theorem wordAt_iff {t : Text} : wordAt word before t = true ↔
    ∃ w rest, t = w ++ rest ∧ w.map Char.toLower = word.map Char.toLower ∧
      (beginsName word && beginsName before) = false ∧
      (endsName word && beginsName rest) = false := by
  rw [wordAt, Bool.and_eq_true, Bool.and_eq_true, startsWithAscii_iff, Bool.not_eq_true',
    Bool.not_eq_true']
  have hdrop {w rest : Text} (hw : w.map Char.toLower = word.map Char.toLower) :
      (w ++ rest).drop word.length = rest := by
    have hlength : w.length = word.length := by simpa using congrArg List.length hw
    rw [← hlength, List.drop_left]
  constructor
  · rintro ⟨⟨⟨w, rest, rfl, hw⟩, hbefore⟩, hbehind⟩
    rw [hdrop hw] at hbehind
    exact ⟨w, rest, rfl, hw, hbefore, hbehind⟩
  · rintro ⟨w, rest, rfl, hw, hbefore, hbehind⟩
    rw [hdrop hw]
    exact ⟨⟨⟨w, rest, rfl, hw⟩, hbefore⟩, hbehind⟩

theorem endsName_append (ha : b ≠ []) : endsName (a ++ b) = endsName b := by
  rw [endsName, List.reverse_append, endsName]
  cases h : b.reverse with
  | nil => exact absurd (List.reverse_eq_nil_iff.mp h) ha
  | cons c rest => rfl

theorem endsName_of_forall (ha : a ≠ []) (h : ∀ c ∈ a, CharClass.isName c = true) :
    endsName a = true := by
  rw [endsName]
  cases hreverse : a.reverse with
  | nil => exact absurd (List.reverse_eq_nil_iff.mp hreverse) ha
  | cons c rest =>
      apply h
      rw [← List.mem_reverse, hreverse]
      exact List.mem_cons_self

/-- Whether a word of name characters stands at the start of a text does not depend on what follows
it, if no name goes on there. -/
theorem wordAt_append (before : Text) (hword : ∀ c ∈ word, CharClass.isName c = true)
    (ha : a ≠ []) (hseam : (endsName a && beginsName b) = false) :
    wordAt word before (a ++ b) = wordAt word before a := by
  have hnames {w : Text} (hw : w.map Char.toLower = word.map Char.toLower) :
      ∀ c ∈ w, CharClass.isName c = true := by
    intro c hc
    have hmem : c.toLower ∈ word.map Char.toLower := hw ▸ List.mem_map_of_mem hc
    obtain ⟨d, hd, hsame⟩ := List.mem_map.mp hmem
    rw [← isName_toLower, ← hsame, isName_toLower]
    exact hword d hd
  rw [Bool.eq_iff_iff, wordAt_iff, wordAt_iff]
  constructor
  · rintro ⟨w, rest, hab, hw, hbefore, hbehind⟩
    rcases List.append_eq_append_iff.mp hab with ⟨w', rfl, rfl⟩ | ⟨a', rfl, rfl⟩
    · cases w' with
      | nil => exact ⟨a, [], by simp, by simpa using hw, hbefore, by simp [beginsName]⟩
      | cons c w' =>
          have hall := hnames hw
          have hends := endsName_of_forall ha fun d hd => hall d (List.mem_append_left _ hd)
          have hc : CharClass.isName c = true := hall c (by simp)
          simp [hends, beginsName, hc] at hseam
    · refine ⟨w, a', rfl, hw, hbefore, ?_⟩
      cases a' with
      | nil => simp [beginsName]
      | cons c a' => exact hbehind
  · rintro ⟨w, rest, rfl, hw, hbefore, hbehind⟩
    refine ⟨w, rest ++ b, List.append_assoc _ _ _, hw, hbefore, ?_⟩
    cases rest with
    | cons c rest => exact hbehind
    | nil =>
        rw [List.append_nil] at ha hseam
        rw [endsName_of_forall ha (hnames hw), Bool.true_and] at hseam
        rw [List.nil_append, hseam, Bool.and_false]

theorem wordAt_congr {before' : Text} (h : beginsName before' = beginsName before) (t : Text) :
    wordAt word before' t = wordAt word before t := by
  rw [wordAt, h, wordAt]

theorem Lacks.cons {c : Char} (h : Lacks word before (c :: a)) : Lacks word (c :: before) a := by
  intro u v hsplit hne
  have hfrom := h (c :: u) v (by rw [hsplit, List.cons_append]) hne
  rwa [List.reverse_cons, List.append_assoc] at hfrom

theorem Lacks.head {c : Char} (h : Lacks word before (c :: a)) :
    wordAt word before (c :: a) = false :=
  h [] (c :: a) rfl (List.cons_ne_nil c a)

/-- What lacks a word lacks it behind any text. -/
theorem Lacks.behind (h : Lacks word [] a) (before : Text) : Lacks word before a := by
  intro u v hsplit hne
  have hfalse := h u v hsplit hne
  cases hreverse : u.reverse with
  | cons c rest =>
      rw [hreverse] at hfalse
      have hsame : wordAt word (c :: rest ++ before) v = wordAt word (c :: rest ++ []) v :=
        wordAt_congr rfl v
      rw [hsame, hfalse]
  | nil =>
      rw [hreverse, List.append_nil] at hfalse
      rw [List.nil_append]
      apply Bool.eq_false_iff.mpr
      intro hword
      obtain ⟨w, rest, hv, hw, -, hbehind⟩ := wordAt_iff.mp hword
      have hstart : wordAt word [] v = true :=
        wordAt_iff.mpr ⟨w, rest, hv, hw, by simp [beginsName], hbehind⟩
      rw [hfalse] at hstart
      contradiction

end Words

end SqlInsight.Text
