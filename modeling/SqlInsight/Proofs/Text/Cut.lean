/-
The offsets at which a text can be cut, and the slices between them. Slices between cuts are put
together like the stretches that they are, and a mask leaves the cuts where they are: what is blank
in the text is blank in the mask between the same two cuts, and what is no blank in the mask stands
there in the text, outside of what is masked.
-/
import SqlInsight.Proofs.Text.Scan

namespace SqlInsight.Text

/-- An offset at which a text can be cut: a character begins there, or the text ends. -/
def IsCut (t : Text) (n : Nat) : Prop :=
  ∃ a b, t = a ++ b ∧ n = size a

variable {t : Text} {k m n : Nat}

theorem isCut_size_append (a b : Text) : IsCut (a ++ b) (size a) :=
  ⟨a, b, rfl, rfl⟩

theorem slice_of_eq {a b c : Text} (ht : t = a ++ b ++ c) (hm : m = size a)
    (hn : n = size (a ++ b)) : slice t m n = b := by
  rw [ht, hm, hn, size_append, slice_append]

/-- A text that can be cut at two offsets is what stands before, between and behind them. -/
theorem IsCut.exists_append (hm : IsCut t m) (hn : IsCut t n) (h : m ≤ n) :
    ∃ a b c, t = a ++ b ++ c ∧ m = size a ∧ n = size (a ++ b) := by
  obtain ⟨a, rest, rfl, rfl⟩ := hm
  obtain ⟨before, c, hcut, rfl⟩ := hn
  obtain ⟨b, rfl, -⟩ := exists_append_of_size_le hcut h
  exact ⟨a, b, c, hcut, rfl, rfl⟩

/-- The slice between two cuts is what stands between them. -/
theorem exists_slice (hm : IsCut t m) (hn : IsCut t n) (h : m ≤ n) :
    ∃ a c, t = a ++ slice t m n ++ c ∧ m = size a ∧ n = m + size (slice t m n) := by
  obtain ⟨a, b, c, ht, hsize, hend⟩ := hm.exists_append hn h
  rw [slice_of_eq ht hsize hend]
  exact ⟨a, c, ht, hsize, by rw [hend, hsize, size_append]⟩

theorem size_slice (hm : IsCut t m) (hn : IsCut t n) (h : m ≤ n) :
    size (slice t m n) = n - m := by
  obtain ⟨a, c, -, -, hsize⟩ := exists_slice hm hn h
  omega

@[simp] theorem takeBytes_zero (t : Text) : takeBytes 0 t = [] := by
  cases t <;> simp [takeBytes]

theorem slice_self (t : Text) (n : Nat) : slice t n n = [] := by
  rw [slice, Nat.sub_self, takeBytes_zero]

theorem takeBytes_append {a : Text} (b : Text) (h : size a ≤ n) :
    takeBytes n (a ++ b) = a ++ takeBytes (n - size a) b := by
  induction a generalizing n with
  | nil => simp
  | cons c rest ih =>
      have hpos := c.utf8Size_pos
      rw [size_cons] at h
      have hn : n ≠ 0 := by omega
      rw [List.cons_append, takeBytes, if_neg hn, ih (by omega), size_cons, Nat.sub_sub,
        List.cons_append]

/-- A slice from a cut is cut at the cuts of the text. -/
theorem slice_eq_append (hm : IsCut t m) (hk : IsCut t k) (hmk : m ≤ k) (hkn : k ≤ n) :
    slice t m n = slice t m k ++ slice t k n := by
  obtain ⟨a, b, rest, ht, rfl, rfl⟩ := hm.exists_append hk hmk
  rw [size_append] at hkn
  rw [slice_of_eq ht rfl rfl, slice, slice, ht, dropBytes_size_append (a ++ b), List.append_assoc,
    dropBytes_size_append, takeBytes_append rest (by omega), size_append, Nat.sub_sub]

/-- The regions of a text, cut where the text is. -/
theorem exists_regions_append {a b c : Text} (ht : t = a ++ b ++ c) :
    ∃ u v w, t.regions = u ++ v ++ w ∧ u.map Prod.fst = a ∧ v.map Prod.fst = b ∧
      w.map Prod.fst = c := by
  have hmap : t.regions.map Prod.fst = a ++ b ++ c := by rw [map_fst_regions, ht]
  obtain ⟨uv, w, hregions, huv, hw⟩ := List.map_eq_append_iff.mp hmap
  obtain ⟨u, v, rfl, hu, hv⟩ := List.map_eq_append_iff.mp huv
  exact ⟨u, v, w, hregions, hu, hv, hw⟩

/-- The mask of a text, cut where the text is: the parts are as long as those of the text. -/
theorem exists_mask_append (r : Mask) {a b c : Text} (ht : t = a ++ b ++ c) :
    ∃ u v w, t.mask r = maskOf r u ++ maskOf r v ++ maskOf r w ∧ u.map Prod.fst = a ∧
      v.map Prod.fst = b ∧ w.map Prod.fst = c ∧ size (maskOf r u) = size a ∧
      size (maskOf r v) = size b := by
  obtain ⟨u, v, w, hregions, hu, hv, hw⟩ := exists_regions_append ht
  refine ⟨u, v, w, ?_, hu, hv, hw, by rw [size_maskOf, hu], by rw [size_maskOf, hv]⟩
  rw [mask_eq_maskOf, hregions, maskOf_append, maskOf_append]

theorem IsCut.mask (r : Mask) (h : IsCut t n) : IsCut (t.mask r) n := by
  obtain ⟨a, b, ht, rfl⟩ := h
  obtain ⟨u, v, w, hmask, -, -, -, hsize, -⟩ :=
    exists_mask_append (t := t) r (a := a) (b := []) (c := b) (by rw [List.append_nil, ht])
  rw [hmask, ← hsize, List.append_assoc]
  exact isCut_size_append _ _

/-- What is blank between two cuts of a text is blank there in every mask. -/
theorem isBlank_slice_mask (r : Mask) (hm : IsCut t m) (hn : IsCut t n) (h : m ≤ n)
    (hblank : (slice t m n).isBlank = true) : (slice (t.mask r) m n).isBlank = true := by
  obtain ⟨a, b, c, ht, rfl, rfl⟩ := hm.exists_append hn h
  obtain ⟨u, v, w, hmask, -, hv, -, hu, hsize⟩ := exists_mask_append r ht
  rw [slice_of_eq ht rfl rfl, isBlank, List.all_eq_true] at hblank
  have hslice : slice (t.mask r) (size a) (size (a ++ b)) = maskOf r v := by
    apply slice_of_eq hmask hu.symm
    rw [size_append, size_append, hu, hsize]
  rw [hslice, isBlank, maskOf, List.all_flatMap, List.all_eq_true]
  intro x hx
  have hblankx : CharClass.isBlank x.1 = true := by
    apply hblank
    rw [← hv]
    exact List.mem_map_of_mem hx
  by_cases hmasked : x.2.isMasked r = true
  · simpa [hmasked] using fun y (hy : y ∈ blanks x.1) => isBlank_of_mem_blanks hy
  · simpa [hmasked] using hblankx

theorem maskOf_cons (m : Mask) (x : Char × Region) (rest : List (Char × Region)) :
    maskOf m (x :: rest) = (if x.2.isMasked m then blanks x.1 else [x.1]) ++ maskOf m rest :=
  List.flatMap_cons

theorem maskOf_singleton (m : Mask) (x : Char × Region) :
    maskOf m [x] = if x.2.isMasked m then blanks x.1 else [x.1] :=
  List.append_nil _

theorem maskOf_of_forall {m : Mask} {regions : List (Char × Region)}
    (h : ∀ x ∈ regions, x.2.isMasked m = false) : maskOf m regions = regions.map Prod.fst := by
  induction regions with
  | nil => rfl
  | cons x rest ih =>
      rw [maskOf_cons, h x List.mem_cons_self, ih fun y hy => h y (List.mem_cons_of_mem x hy)]
      rfl

theorem eq_nil_of_maskOf {m : Mask} {regions : List (Char × Region)} (h : maskOf m regions = []) :
    regions = [] := by
  have hsize := size_maskOf m regions
  rw [h, size_nil] at hsize
  exact List.map_eq_nil_iff.mp ((size_eq_zero_iff _).mp hsize.symm)

/-- Masked regions have a character that is no blank only where their text has it, in a region that
is not masked. -/
theorem exists_regions_of_maskOf {m : Mask} {c : Char} (hc : CharClass.isBlank c = false)
    {regions : List (Char × Region)} {u v : Text} (h : maskOf m regions = u ++ c :: v) :
    ∃ before region behind, regions = before ++ (c, region) :: behind ∧
      region.isMasked m = false ∧ maskOf m before = u ∧ maskOf m behind = v := by
  induction regions generalizing u with
  | nil => simp [maskOf] at h
  | cons x rest ih =>
      rw [maskOf_cons] at h
      by_cases hmasked : x.2.isMasked m = true
      · rw [if_pos hmasked] at h
        obtain ⟨more, rfl, hrest⟩ : ∃ more, u = blanks x.1 ++ more ∧
            maskOf m rest = more ++ c :: v := by
          rcases List.append_eq_append_iff.mp h with hmore | ⟨more, hblanks, hrest⟩
          · exact hmore
          · cases more with
            | nil => exact ⟨[], by simpa using hblanks.symm, hrest.symm⟩
            | cons d more =>
                obtain ⟨rfl, -⟩ := List.cons.inj hrest
                have hmem : c ∈ blanks x.1 := by
                  rw [hblanks]
                  simp
                rw [isBlank_of_mem_blanks hmem] at hc
                contradiction
        obtain ⟨before, region, behind, rfl, hplain, rfl, rfl⟩ := ih hrest
        exact ⟨x :: before, region, behind, rfl, hplain, by rw [maskOf_cons, if_pos hmasked], rfl⟩
      · rw [if_neg hmasked, List.singleton_append] at h
        cases u with
        | nil =>
            obtain ⟨rfl, rfl⟩ := List.cons.inj h
            exact ⟨[], x.2, rest, rfl, by simpa using hmasked, rfl, rfl⟩
        | cons d u =>
            obtain ⟨rfl, hrest⟩ := List.cons.inj h
            obtain ⟨before, region, behind, rfl, hplain, rfl, rfl⟩ := ih hrest
            exact ⟨x :: before, region, behind, rfl, hplain, by
              rw [maskOf_cons, if_neg hmasked, List.singleton_append], rfl⟩

/-- A mask has text without blanks only where the text has it, outside of what is masked. -/
theorem exists_regions_of_maskOf_append {m : Mask} {regions : List (Char × Region)}
    {u w v : Text} (hw : ∀ c ∈ w, CharClass.isBlank c = false) (hne : w ≠ [])
    (h : maskOf m regions = u ++ w ++ v) :
    ∃ before own behind, regions = before ++ own ++ behind ∧ own.map Prod.fst = w ∧
      (∀ x ∈ own, x.2.isMasked m = false) ∧ maskOf m before = u ∧ maskOf m behind = v := by
  induction w generalizing regions u with
  | nil => exact absurd rfl hne
  | cons c rest ih =>
      have hc := hw c List.mem_cons_self
      rw [List.append_assoc, List.cons_append] at h
      obtain ⟨before, region, behind, rfl, hplain, hbefore, hbehind⟩ :=
        exists_regions_of_maskOf hc h
      by_cases hrest : rest = []
      · subst hrest
        exact ⟨before, [(c, region)], behind, by simp, rfl, by simpa using hplain, hbefore,
          hbehind⟩
      · obtain ⟨between, own, behind, rfl, rfl, hown, hbetween, hlast⟩ :=
          ih (u := []) (fun d hd => hw d (List.mem_cons_of_mem c hd)) hrest hbehind
        obtain rfl := eq_nil_of_maskOf hbetween
        refine ⟨before, (c, region) :: own, behind, by simp, rfl, ?_, hbefore, hlast⟩
        intro x hx
        rcases List.mem_cons.mp hx with rfl | hx
        · exact hplain
        · exact hown x hx

/-- Masked regions have a character that is no blank only where their text has it. -/
theorem exists_append_of_maskOf {r : Mask} {c : Char} (hc : CharClass.isBlank c = false)
    {regions : List (Char × Region)} {u v : Text} (h : maskOf r regions = u ++ c :: v) :
    ∃ before after, regions.map Prod.fst = before ++ c :: after ∧ size before = size u := by
  obtain ⟨before, region, behind, rfl, -, rfl, -⟩ := exists_regions_of_maskOf hc h
  refine ⟨before.map Prod.fst, behind.map Prod.fst, ?_, (size_maskOf r before).symm⟩
  rw [List.map_append, List.map_cons]

/-- A mask has a character that is no blank only where the text has it. -/
theorem isCut_of_mask {r : Mask} {c : Char} (hc : CharClass.isBlank c = false) {u v : Text}
    (h : t.mask r = u ++ c :: v) : IsCut t (size u) ∧ IsCut t (size (u ++ [c])) := by
  rw [mask_eq_maskOf] at h
  obtain ⟨before, after, ht, hsize⟩ := exists_append_of_maskOf hc h
  rw [map_fst_regions] at ht
  rw [ht, size_append, ← hsize, ← size_append]
  refine ⟨isCut_size_append _ _, before ++ [c], after, ?_, rfl⟩
  rw [List.append_assoc, List.singleton_append]

theorem not_mem_of_isBlank {c : Char} (hc : CharClass.isBlank c = false)
    (h : t.isBlank = true) : c ∉ t := by
  intro hmem
  rw [isBlank, List.all_eq_true] at h
  rw [h c hmem] at hc
  contradiction

theorem startsWith_iff {t start : Text} : startsWith t start = true ↔ start <+: t := by
  induction t, start using startsWith.induct with
  | case1 t => simp [startsWith]
  | case2 s start => simp [startsWith]
  | case3 c rest s start ih =>
      rw [startsWith, Bool.and_eq_true, beq_iff_eq, ih, List.cons_prefix_cons, eq_comm]

theorem findFrom_add (needle : Text) (m n : Nat) (t : Text) :
    findFrom needle (m + n) t = (findFrom needle n t).map (m + ·) := by
  induction t generalizing n with
  | nil =>
      by_cases hempty : needle.isEmpty = true
      · simp [findFrom, hempty]
      · simp [findFrom, hempty]
  | cons c rest ih =>
      by_cases hstart : startsWith (c :: rest) needle = true
      · simp [findFrom, hstart]
      · simp only [findFrom, hstart, Bool.false_eq_true, ↓reduceIte, Nat.add_assoc, ih]

/-- A character that does not occur in the first part of a text is looked for in the second. -/
theorem find?_append {c : Char} {a : Text} (ha : c ∉ a) (b : Text) :
    find? (a ++ b) [c] = (find? b [c]).map (size a + ·) := by
  rw [find?, find?, ← findFrom_add, Nat.add_zero]
  suffices h : ∀ n, findFrom [c] n (a ++ b) = findFrom [c] (n + size a) b by
    simpa using h 0
  intro n
  induction a generalizing n with
  | nil => simp
  | cons d rest ih =>
      have hne : d ≠ c := fun heq => ha (heq ▸ List.mem_cons_self)
      have hrest : c ∉ rest := fun hmem => ha (List.mem_cons_of_mem d hmem)
      simp [findFrom, startsWith, hne, ih hrest, Nat.add_assoc]

theorem find?_of_not_mem {c : Char} (h : c ∉ t) : find? t [c] = none := by
  have hfind := find?_append h []
  rw [List.append_nil] at hfind
  rw [hfind]
  rfl

theorem exists_of_find? {c : Char} (h : find? t [c] = some n) :
    ∃ a b, t = a ++ c :: b ∧ c ∉ a ∧ n = size a := by
  by_cases hmem : c ∈ t
  · obtain ⟨a, b, rfl, ha⟩ := List.eq_append_cons_of_mem hmem
    rw [find?_append ha] at h
    refine ⟨a, b, rfl, ha, ?_⟩
    have hfind : find? (c :: b) [c] = some 0 := by simp [find?, findFrom, startsWith]
    rw [hfind] at h
    exact (Option.some.inj h).symm
  · rw [find?_of_not_mem hmem] at h
    contradiction

end SqlInsight.Text
