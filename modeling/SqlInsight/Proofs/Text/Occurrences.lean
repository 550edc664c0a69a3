/-
Searches find the first occurrence. From a cut of the text on, a search gives the least offset at
which its test holds, and nothing exactly if the test holds at no later offset; from inside of a
character on it gives nothing. A word that stands at an offset of a text takes up as many bytes as
it has itself, and both its ends are cuts.
-/
import SqlInsight.Proofs.Text.Search

namespace SqlInsight.Text

/-- A test holds at an offset of a text: of the text before it, in reverse, and what stands from
there on, which is not empty. -/
def HoldsAt (p : Text → Text → Bool) (t : Text) (n : Nat) : Prop :=
  ∃ u v, t = u ++ v ∧ v ≠ [] ∧ size u = n ∧ p u.reverse v = true

/-- The first offset, `start` or later, at which a test holds. -/
structure FirstFrom (p : Text → Text → Bool) (t : Text) (start n : Nat) : Prop where
  holds : HoldsAt p t n
  start_le : start ≤ n
  le_of_holds : ∀ m, HoldsAt p t m → start ≤ m → n ≤ m

section

variable {p : Text → Text → Bool} {t : Text} {start next n m : Nat}

theorem isCut_zero (t : Text) : IsCut t 0 :=
  ⟨[], t, rfl, rfl⟩

theorem HoldsAt.isCut (h : HoldsAt p t n) : IsCut t n := by
  obtain ⟨u, v, rfl, -, rfl, -⟩ := h
  exact isCut_size_append u v

theorem FirstFrom.unique (h : FirstFrom p t start n) (h' : FirstFrom p t start m) : n = m :=
  Nat.le_antisymm (h.le_of_holds m h'.holds h'.start_le) (h'.le_of_holds n h.holds h.start_le)

/-- A search passes over what stands before its start. -/
theorem seekFrom_append (before : Text) (offset : Nat) (a b : Text) :
    seekFrom p (offset + size a) before offset (a ++ b) =
      seekFrom p (offset + size a) (a.reverse ++ before) (offset + size a) b := by
  induction a generalizing before offset with
  | nil => rfl
  | cons c rest ih =>
      have hpos := c.utf8Size_pos
      have hnext := ih (c :: before) (offset + c.utf8Size)
      rw [Nat.add_assoc, ← size_cons] at hnext
      rw [List.cons_append, seekFrom, if_pos (by rw [size_cons]; omega),
        if_neg (by rw [size_cons]; omega), hnext, List.reverse_cons, List.append_assoc]
      rfl

theorem seek_append (a b : Text) :
    seek p (size a) (a ++ b) = seekFrom p (size a) a.reverse (size a) b := by
  have h := seekFrom_append (p := p) [] 0 a b
  rwa [Nat.zero_add, List.append_nil] at h

/-- Where its test holds, a search has stopped. -/
theorem exists_seekFrom_le {before : Text} {offset : Nat} (h : start ≤ offset) {u v : Text}
    (hv : v ≠ []) (hp : p (u.reverse ++ before) v = true) :
    ∃ n ≤ offset + size u, seekFrom p start before offset (u ++ v) = some n := by
  induction u generalizing before offset with
  | nil =>
      obtain ⟨c, rest, rfl⟩ := List.exists_cons_of_ne_nil hv
      rw [List.reverse_nil, List.nil_append] at hp
      refine ⟨offset, Nat.le_add_right offset _, ?_⟩
      rw [List.nil_append, seekFrom, if_neg (Nat.not_lt.mpr h), if_pos hp]
  | cons c rest ih =>
      by_cases hhere : p before (c :: (rest ++ v)) = true
      · refine ⟨offset, Nat.le_add_right offset _, ?_⟩
        rw [List.cons_append, seekFrom, if_neg (Nat.not_lt.mpr h), if_pos hhere]
      · have hbehind : p (rest.reverse ++ c :: before) v = true := by
          rwa [List.reverse_cons, List.append_assoc] at hp
        have hstart : start ≤ offset + c.utf8Size := Nat.le_add_right_of_le h
        obtain ⟨n, hn, hseek⟩ := ih hstart hbehind
        refine ⟨n, by rw [size_cons]; omega, ?_⟩
        rw [List.cons_append, seekFrom, if_neg (Nat.not_lt.mpr h), if_neg hhere, hseek]

theorem exists_seek_le (h : IsCut t start) (hm : HoldsAt p t m) (hle : start ≤ m) :
    ∃ n ≤ m, seek p start t = some n := by
  obtain ⟨a, b, rfl, rfl⟩ := h
  obtain ⟨u, v, hsplit, hv, rfl, hp⟩ := hm
  obtain ⟨u, rfl, hb⟩ := exists_append_of_size_le hsplit hle
  rw [List.reverse_append] at hp
  obtain ⟨n, hn, hseek⟩ := exists_seekFrom_le (Nat.le_refl (size a)) hv hp
  rw [seek_append, hb, size_append]
  exact ⟨n, hn, hseek⟩

theorem holdsAt_of_seek (h : seek p start t = some n) : HoldsAt p t n := by
  obtain ⟨a, c, b, rfl, rfl, hp⟩ := exists_of_seek h
  exact ⟨a, c :: b, rfl, List.cons_ne_nil c b, rfl, hp⟩

theorem start_le_of_seek (hcut : IsCut t start) (h : seek p start t = some n) : start ≤ n := by
  obtain ⟨a, b, rfl, rfl⟩ := hcut
  rw [seek_append] at h
  obtain ⟨u, -, -, -, rfl, -⟩ := exists_of_seekFrom h
  exact Nat.le_add_right (size a) (size u)

/-- From a cut on, a search gives the first offset at which its test holds. -/
theorem seek_eq_some_iff (h : IsCut t start) : seek p start t = some n ↔ FirstFrom p t start n := by
  constructor
  · intro hseek
    refine ⟨holdsAt_of_seek hseek, start_le_of_seek h hseek, ?_⟩
    intro m hm hle
    obtain ⟨n', hn', hseek'⟩ := exists_seek_le h hm hle
    rw [hseek, Option.some.injEq] at hseek'
    rwa [hseek']
  · intro hfirst
    obtain ⟨n', hn', hseek⟩ := exists_seek_le h hfirst.holds hfirst.start_le
    have hle := hfirst.le_of_holds n' (holdsAt_of_seek hseek) (start_le_of_seek h hseek)
    rw [hseek, Nat.le_antisymm hn' hle]

/-- From a cut on, a search gives nothing if its test holds nowhere. -/
theorem seek_eq_none_iff (h : IsCut t start) :
    seek p start t = none ↔ ∀ m, HoldsAt p t m → m < start := by
  constructor
  · intro hnone m hm
    by_contra hle
    obtain ⟨n, -, hseek⟩ := exists_seek_le h hm (Nat.not_lt.mp hle)
    rw [hnone] at hseek
    contradiction
  · intro hall
    apply Option.eq_none_iff_forall_not_mem.mpr
    intro n hseek
    have hlt := hall n (holdsAt_of_seek hseek)
    have hle := start_le_of_seek h hseek
    omega

/-- Nothing is found from an offset inside a character on. -/
theorem seekFrom_eq_none {before : Text} {offset : Nat} (hle : offset ≤ start)
    (h : ¬IsCut t (start - offset)) : seekFrom p start before offset t = none := by
  induction t generalizing before offset with
  | nil => rfl
  | cons c rest ih =>
      have hlt : offset < start := by
        rcases Nat.lt_or_eq_of_le hle with hlt | rfl
        · exact hlt
        · exact absurd (Nat.sub_self offset ▸ isCut_zero (c :: rest)) h
      rw [seekFrom, if_pos hlt]
      by_cases hnext : start < offset + c.utf8Size
      · exact if_pos hnext
      · refine (if_neg hnext).trans (ih (Nat.not_lt.mp hnext) ?_)
        rintro ⟨a, b, rfl, hsize⟩
        refine h ⟨c :: a, b, rfl, ?_⟩
        rw [size_cons]
        omega

theorem seek_eq_none_of_not_isCut (h : ¬IsCut t start) : seek p start t = none :=
  seekFrom_eq_none (Nat.zero_le start) h

/-- A search may go on further behind, as long as its test holds nowhere on the way. -/
theorem seek_skip (hstart : IsCut t start) (hnext : IsCut t next) (hle : start ≤ next)
    (h : ∀ m, HoldsAt p t m → start ≤ m → next ≤ m) : seek p start t = seek p next t := by
  cases hseek : seek p next t with
  | none =>
      rw [seek_eq_none_iff hnext] at hseek
      rw [seek_eq_none_iff hstart]
      intro m hm
      by_contra hnot
      have hlt := hseek m hm
      have hge := h m hm (Nat.not_lt.mp hnot)
      omega
  | some n =>
      rw [seek_eq_some_iff hnext] at hseek
      rw [seek_eq_some_iff hstart]
      refine ⟨hseek.holds, Nat.le_trans hle hseek.start_le, ?_⟩
      intro m hm hm'
      exact hseek.le_of_holds m hm (h m hm hm')

theorem seek_eq_self_iff : seek p n t = some n ↔ HoldsAt p t n := by
  constructor
  · exact holdsAt_of_seek
  · intro hholds
    exact (seek_eq_some_iff hholds.isCut).mpr ⟨hholds, Nat.le_refl n, fun _ _ hle => hle⟩

instance : Decidable (HoldsAt p t n) :=
  decidable_of_iff (seek p n t = some n) seek_eq_self_iff

end

section

variable {word : Text} {t : Text} {n : Nat}

theorem utf8Size_toLower (c : Char) : c.toLower.utf8Size = c.utf8Size :=
  CaseFold.apply_toLower (by decide +kernel) c

theorem isBlank_toLower (c : Char) : CharClass.isBlank c.toLower = CharClass.isBlank c :=
  CaseFold.apply_toLower (by decide +kernel) c

theorem size_map_toLower (t : Text) : size (t.map Char.toLower) = size t := by
  induction t with
  | nil => rfl
  | cons c rest ih => rw [List.map_cons, size_cons, size_cons, utf8Size_toLower, ih]

/-- A word stands at an offset where it is written in some case, which takes up its bytes. -/
theorem HoldsAt.exists_written (h : HoldsAt (wordAt word) t n) :
    ∃ u w rest, t = u ++ w ++ rest ∧ size u = n ∧ size w = size word ∧
      w.map Char.toLower = word.map Char.toLower := by
  obtain ⟨u, v, rfl, -, rfl, hword⟩ := h
  obtain ⟨w, rest, rfl, hw, -, -⟩ := wordAt_iff.mp hword
  refine ⟨u, w, rest, (List.append_assoc u w rest).symm, rfl, ?_, hw⟩
  rw [← size_map_toLower w, hw, size_map_toLower]

/-- A word that stands at an offset ends at a cut. -/
theorem HoldsAt.isCut_add (h : HoldsAt (wordAt word) t n) : IsCut t (n + size word) := by
  obtain ⟨u, w, rest, rfl, rfl, hsize, -⟩ := h.exists_written
  rw [← hsize, ← size_append]
  exact isCut_size_append (u ++ w) rest

/-- A word that does not begin with a blank stands in a mask at a cut of the text. -/
theorem HoldsAt.isCut_of_mask {r : Mask} {c : Char} {rest : Text}
    (h : HoldsAt (wordAt (c :: rest)) (t.mask r) n) (hc : CharClass.isBlank c = false) :
    IsCut t n := by
  obtain ⟨u, w, behind, hmask, rfl, -, hw⟩ := h.exists_written
  cases w with
  | nil => contradiction
  | cons d w =>
      have hd : d.toLower = c.toLower := (List.cons.inj hw).1
      rw [← isBlank_toLower, ← hd, isBlank_toLower] at hc
      rw [List.append_assoc, List.cons_append] at hmask
      exact (Text.isCut_of_mask hc hmask).1

end

end SqlInsight.Text
