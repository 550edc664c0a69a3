/-
Masking as a scan of bytes. The scan takes one or two bytes at a time and knows nothing of
characters. Only ASCII bytes steer it, so on the UTF-8 form of a text it takes the bytes of whole
characters, and what it leaves is the UTF-8 form of the mask: bytes are replaced one for one, and
the mask can be cut wherever the text can.
-/
import SqlInsight.Proofs.Text.Utf8

namespace SqlInsight

/-- How much a mask blanks: each mask blanks all that a lesser one does, and more. -/
def Mask.rank : Mask → Nat
  | comments => 0
  | literals => 1
  | identifiers => 2

namespace Region

theorem isMasked_mono {m m' : Mask} (h : m.rank ≤ m'.rank) {r : Region}
    (hr : r.isMasked m = true) : r.isMasked m' = true := by
  cases m <;> cases m' <;> simp [Mask.rank] at h <;> cases r <;> simp_all [isMasked]

/-- Take the next bytes of a delimited region that `close` ends: the region they belong to, how many
they are, and the region behind them. -/
def takeDelimited (region : Region) (close b : UInt8) (next : Option UInt8) :
    Region × Nat × Region :=
  if b = close then
    if next = some close then (region, 2, region) else (region, 1, .code)
  else (region, 1, region)

/-- Take the next bytes, of which the first two are known: the region they belong to, how many they
are, and the region behind them. -/
def takeNext (r : Region) (b : UInt8) (next : Option UInt8) : Region × Nat × Region :=
  match r with
  | .code =>
      if b = '\''.toUInt8 then (.singleQuoted, 1, .singleQuoted)
      else if b = '"'.toUInt8 then (.doubleQuoted, 1, .doubleQuoted)
      else if b = '['.toUInt8 then (.bracketed, 1, .bracketed)
      else if b = '-'.toUInt8 ∧ next = some '-'.toUInt8 then (.lineComment, 2, .lineComment)
      else if b = '/'.toUInt8 ∧ next = some '*'.toUInt8 then
        (.blockComment 1, 2, .blockComment 1)
      else (.code, 1, .code)
  | .singleQuoted => takeDelimited .singleQuoted '\''.toUInt8 b next
  | .doubleQuoted => takeDelimited .doubleQuoted '"'.toUInt8 b next
  | .bracketed => takeDelimited .bracketed ']'.toUInt8 b next
  | .lineComment =>
      if b = '\n'.toUInt8 then (.code, 1, .code) else (.lineComment, 1, .lineComment)
  | .blockComment depth =>
      if b = '*'.toUInt8 ∧ next = some '/'.toUInt8 then
        (.blockComment depth, 2, if depth ≤ 1 then .code else .blockComment (depth - 1))
      else if b = '/'.toUInt8 ∧ next = some '*'.toUInt8 then
        (.blockComment depth, 2, .blockComment (depth + 1))
      else (.blockComment depth, 1, .blockComment depth)

def maskByte (m : Mask) (r : Region) (b : UInt8) : UInt8 :=
  if r.isMasked m ∧ b ≠ '\n'.toUInt8 then ' '.toUInt8 else b

end Region

/-- How many characters the scan has before it that belong to the token it reads. -/
def ScanState.width : ScanState → Nat
  | inside _ => 1
  | midway _ _ => 2

namespace Text

open ScanState

/-- The masked bytes, when the scan stands in region `r` before them, and the region in which they
end. -/
def maskBytes (m : Mask) (r : Region) : List UInt8 → List UInt8 × Region
  | [] => ([], r)
  | b :: rest =>
      let (region, width, after) := r.takeNext b rest.head?
      let (masked, last) := maskBytes m after (rest.drop (width - 1))
      (((b :: rest).take width).map (region.maskByte m) ++ masked, last)
termination_by bytes => bytes.length
decreasing_by
  rw [List.length_drop, List.length_cons]
  omega

section Steps

variable {m : Mask} {r region after : Region} {b b' : UInt8} {rest : List UInt8}

theorem maskBytes_one (h : r.takeNext b rest.head? = (region, 1, after)) :
    maskBytes m r (b :: rest) =
      (region.maskByte m b :: (maskBytes m after rest).1, (maskBytes m after rest).2) := by
  rw [maskBytes, h]
  rfl

theorem maskBytes_two (h : r.takeNext b (some b') = (region, 2, after)) :
    maskBytes m r (b :: b' :: rest) =
      (region.maskByte m b :: region.maskByte m b' :: (maskBytes m after rest).1,
        (maskBytes m after rest).2) := by
  rw [maskBytes, List.head?_cons, h]
  rfl

/-- A byte that is no ASCII character does not steer the scan. -/
theorem takeNext_of_le (h : 128 ≤ b) (next : Option UInt8) :
    r.takeNext b next = (r, 1, r) := by
  have hne {c : Char} (hc : c.utf8Size = 1) : b ≠ c.toUInt8 := by
    rintro rfl
    exact UInt8.not_lt.mpr h (toUInt8_lt hc)
  cases r <;>
    simp [Region.takeNext, Region.takeDelimited, hne (c := '\'') rfl, hne (c := '"') rfl,
      hne (c := '[') rfl, hne (c := ']') rfl, hne (c := '-') rfl, hne (c := '/') rfl,
      hne (c := '*') rfl, hne (c := '\n') rfl]

theorem maskBytes_of_le {high : List UInt8} (h : ∀ b ∈ high, 128 ≤ b) :
    maskBytes m r (high ++ rest) =
      (high.map (r.maskByte m) ++ (maskBytes m r rest).1, (maskBytes m r rest).2) := by
  induction high with
  | nil => rfl
  | cons b more ih =>
      rw [List.cons_append, maskBytes_one (takeNext_of_le (h b List.mem_cons_self) _),
        ih fun x hx => h x (List.mem_cons_of_mem b hx)]
      rfl

end Steps

section Characters

variable (m : Mask) (r : Region) {c : Char} (rest : Text)

/-- On the byte of an ASCII character the scan of the bytes goes as the scan of the characters. -/
theorem takeNext_utf8 (hc : c.utf8Size = 1) :
    r.takeNext c.toUInt8 (utf8 rest).head? =
      (((inside r).step c rest.head?).1, ((inside r).step c rest.head?).2.width,
        ((inside r).step c rest.head?).2.region) := by
  have hbyte {d : Char} (hd : d.utf8Size = 1) : c.toUInt8 = d.toUInt8 ↔ c = d := toUInt8_inj hc hd
  have hnext {d : Char} (hd : d.utf8Size = 1) :
      (utf8 rest).head? = some d.toUInt8 ↔ rest.head? = some d := head?_utf8_eq_iff hd rest
  cases r <;>
    simp only [Region.takeNext, Region.takeDelimited, step, stepCode, stepDelimited, stepBlock,
      hbyte (d := '\'') rfl, hbyte (d := '"') rfl, hbyte (d := '[') rfl, hbyte (d := ']') rfl,
      hbyte (d := '-') rfl, hbyte (d := '/') rfl, hbyte (d := '*') rfl, hbyte (d := '\n') rfl,
      hnext (d := '\'') rfl, hnext (d := '"') rfl, hnext (d := ']') rfl, hnext (d := '-') rfl,
      hnext (d := '/') rfl, hnext (d := '*') rfl] <;>
    split_ifs <;> rfl

/-- A character that is not ASCII stays in the region that it stands in. -/
theorem step_of_utf8Size_ne (hc : c.utf8Size ≠ 1) (next : Option Char) :
    (inside r).step c next = (r, inside r) := by
  have hne {d : Char} (hd : d.utf8Size = 1) : c ≠ d := by
    rintro rfl
    exact hc hd
  cases r <;>
    simp [step, stepCode, stepDelimited, stepBlock, hne (d := '\'') rfl, hne (d := '"') rfl,
      hne (d := '[') rfl, hne (d := ']') rfl, hne (d := '-') rfl, hne (d := '/') rfl,
      hne (d := '*') rfl, hne (d := '\n') rfl]

/-- A token of two characters stands in one region, and the second of them ends a pair. -/
theorem exists_of_step_midway {next : Option Char} {q q' after : Region}
    (h : (inside r).step c next = (q, midway q' after)) :
    q' = q ∧ ∃ d, next = some d ∧ isPairEnd d = true := by
  cases r <;> simp only [step, stepCode, stepDelimited, stepBlock] at h <;> split_ifs at h <;>
    simp only [Prod.mk.injEq, midway.injEq, reduceCtorEq, and_false] at h <;>
    obtain ⟨rfl, rfl, -⟩ := h <;> simp_all [isPairEnd]

theorem utf8Size_of_isPairEnd {d : Char} (hd : isPairEnd d = true) : d.utf8Size = 1 := by
  rcases (isPairEnd_iff d).mp hd with rfl | rfl | rfl | rfl | rfl | rfl <;> rfl

theorem utf8_blanks (hc : c ≠ '\n') :
    utf8 (blanks c) = List.replicate c.utf8Size ' '.toUInt8 := by
  have hspaces : ∀ d ∈ List.replicate c.utf8Size ' ', d.utf8Size = 1 := by
    intro d hd
    rw [List.eq_of_mem_replicate hd]
    rfl
  rw [blanks, if_neg hc, utf8_of_ascii hspaces, List.map_replicate]

/-- A mask leaves of a character what it leaves of each of its bytes. -/
theorem utf8_masked (x : Char × Region) :
    utf8 (if x.2.isMasked m then blanks x.1 else [x.1]) =
      (String.utf8EncodeChar x.1).map (x.2.maskByte m) := by
  obtain ⟨c, r⟩ := x
  by_cases hmask : r.isMasked m = true
  · by_cases hc : c = '\n'
    · subst hc
      rw [if_pos hmask]
      simp [blanks, utf8, utf8EncodeChar_ascii, Region.maskByte]
    · have hbytes : ∀ b ∈ String.utf8EncodeChar c, r.maskByte m b = ' '.toUInt8 := by
        intro b hb
        have hne : b ≠ '\n'.toUInt8 := by
          rintro rfl
          exact hc ((toUInt8_mem_utf8EncodeChar_iff rfl).mp hb)
        rw [Region.maskByte, if_pos ⟨hmask, hne⟩]
      rw [if_pos hmask, utf8_blanks hc, List.map_congr_left hbytes, List.map_const',
        String.length_utf8EncodeChar]
  · have hsame (b : UInt8) : r.maskByte m b = b := by simp [Region.maskByte, hmask]
    rw [if_neg hmask, List.map_congr_left fun b _ => hsame b, List.map_id']
    simp [utf8]

/-- The bytes of some characters, each with the region of its character. -/
def byteRegions (regions : List (Char × Region)) : List (UInt8 × Region) :=
  regions.flatMap fun (c, r) => (String.utf8EncodeChar c).map (·, r)

theorem map_fst_byteRegions (regions : List (Char × Region)) :
    (byteRegions regions).map Prod.fst = utf8 (regions.map Prod.fst) := by
  induction regions with
  | nil => rfl
  | cons x rest ih =>
      rw [byteRegions, List.flatMap_cons, List.map_append, ← byteRegions, ih, List.map_cons,
        utf8_cons, List.map_map]
      congr 1
      exact List.map_id _

theorem utf8_maskOf_cons (x : Char × Region) (rest : List (Char × Region)) :
    utf8 (maskOf m (x :: rest)) =
      (String.utf8EncodeChar x.1).map (x.2.maskByte m) ++ utf8 (maskOf m rest) := by
  rw [← utf8_masked, maskOf, List.flatMap_cons, utf8_append, ← maskOf]

/-- A mask is told byte by byte. -/
theorem utf8_maskOf (regions : List (Char × Region)) :
    utf8 (maskOf m regions) = (byteRegions regions).map fun x => x.2.maskByte m x.1 := by
  induction regions with
  | nil => rfl
  | cons x rest ih =>
      rw [utf8_maskOf_cons, ih, byteRegions, byteRegions, List.flatMap_cons, List.map_append,
        List.map_map]
      rfl

/-- The scan of the bytes of a text gives the bytes of its mask, and ends in its last region. -/
theorem maskBytes_utf8 (t : Text) : maskBytes m r (utf8 t) =
    (utf8 (maskOf m (regionsFrom (inside r) t)), (scanFrom (inside r) t).region) := by
  induction hlength : t.length using Nat.strong_induction_on generalizing r t with
  | h n ih =>
      cases t with
      | nil =>
          rw [utf8_nil, maskBytes]
          rfl
      | cons c rest =>
          rw [List.length_cons] at hlength
          rw [utf8_cons, regionsFrom_cons, scanFrom, utf8_maskOf_cons]
          by_cases hc : c.utf8Size = 1
          · have htake := takeNext_utf8 r rest hc
            rw [utf8EncodeChar_ascii hc, List.singleton_append]
            rcases hstep : (inside r).step c rest.head? with ⟨region, next⟩
            rw [hstep] at htake
            cases next with
            | inside after =>
                have hone : r.takeNext c.toUInt8 (utf8 rest).head? = (region, 1, after) := htake
                rw [maskBytes_one hone, ih rest.length (by omega) after rest rfl]
                rfl
            | midway region' after =>
                obtain ⟨rfl, d, hhead, hpair⟩ := exists_of_step_midway r hstep
                have hd := utf8Size_of_isPairEnd hpair
                obtain ⟨more, rfl⟩ := List.head?_eq_some_iff.mp hhead
                rw [List.length_cons] at hlength
                rw [utf8_cons, utf8EncodeChar_ascii hd, List.singleton_append] at htake ⊢
                have htwo : r.takeNext c.toUInt8 (some d.toUInt8) = (region', 2, after) := htake
                rw [maskBytes_two htwo, ih more.length (by omega) after more rfl,
                  regionsFrom_cons, utf8_maskOf_cons, utf8EncodeChar_ascii hd]
                rfl
          · rw [maskBytes_of_le fun b hb => le_of_mem_utf8EncodeChar hc hb,
              step_of_utf8Size_ne r hc, ih rest.length (by omega) r rest rfl]

/-- On a text the scan of the bytes gives the mask and the region in which the text ends. -/
theorem maskBytes_code (t : Text) :
    maskBytes m .code (utf8 t) = (utf8 (t.mask m), t.endRegion) := by
  rw [maskBytes_utf8]
  rfl

theorem utf8_mask (t : Text) :
    utf8 (t.mask m) = (byteRegions t.regions).map fun x => x.2.maskByte m x.1 := by
  rw [mask_eq_maskOf, utf8_maskOf]

theorem utf8_eq_map_byteRegions (t : Text) :
    utf8 t = (byteRegions t.regions).map Prod.fst := by
  rw [map_fst_byteRegions, map_fst_regions]

end Characters

/-- A text that stands for another one byte for byte: bytes are changed to spaces only, whole
characters at a time, and line feeds stay. -/
structure Aligned (t u : Text) : Prop where
  length_eq : (utf8 u).length = (utf8 t).length
  newline_iff : ∀ n : Nat, (utf8 u)[n]? = some '\n'.toUInt8 ↔ (utf8 t)[n]? = some '\n'.toUInt8
  byte_cases : ∀ (n : Nat) (b : UInt8), (utf8 t)[n]? = some b →
    (utf8 u)[n]? = some b ∨ (utf8 u)[n]? = some ' '.toUInt8 ∧ b ≠ '\n'.toUInt8
  whole : ∀ a c rest, t = a ++ c :: rest →
    ((utf8 u).drop (size a)).take c.utf8Size = String.utf8EncodeChar c ∨
      ((utf8 u).drop (size a)).take c.utf8Size = List.replicate c.utf8Size ' '.toUInt8
  isBoundary : ∀ n, t.isBoundary n = true → u.isBoundary n = true

theorem maskByte_eq_newline_iff (m : Mask) (r : Region) (b : UInt8) :
    r.maskByte m b = '\n'.toUInt8 ↔ b = '\n'.toUInt8 := by
  unfold Region.maskByte
  split
  · rename_i hmask
    exact iff_of_false (by decide) hmask.2
  · rfl

theorem maskByte_cases (m : Mask) (r : Region) (b : UInt8) :
    r.maskByte m b = b ∨ r.maskByte m b = ' '.toUInt8 ∧ b ≠ '\n'.toUInt8 := by
  unfold Region.maskByte
  split
  · rename_i hmask
    exact Or.inr ⟨rfl, hmask.2⟩
  · exact Or.inl rfl

/-- What a mask blanks, a greater one does. -/
theorem maskByte_mono {m m' : Mask} (h : m.rank ≤ m'.rank) {r : Region} {b : UInt8}
    (hb : r.maskByte m b = ' '.toUInt8) : r.maskByte m' b = ' '.toUInt8 := by
  by_cases hmask : r.isMasked m = true ∧ b ≠ '\n'.toUInt8
  · rw [Region.maskByte, if_pos ⟨Region.isMasked_mono h hmask.1, hmask.2⟩]
  · rw [Region.maskByte, if_neg hmask] at hb
    rcases maskByte_cases m' r b with hsame | ⟨hspace, -⟩
    · rw [hsame, hb]
    · exact hspace

/-- The bytes of a character are blanked all at once. -/
theorem utf8_mask_whole (m : Mask) (a : Text) (c : Char) (rest : Text) :
    ((utf8 ((a ++ c :: rest).mask m)).drop (size a)).take c.utf8Size = String.utf8EncodeChar c ∨
      ((utf8 ((a ++ c :: rest).mask m)).drop (size a)).take c.utf8Size =
        List.replicate c.utf8Size ' '.toUInt8 := by
  obtain ⟨u, v, w, hmask, -, hv, -, hsize, hown⟩ :=
    exists_mask_append (t := a ++ c :: rest) m (a := a) (b := [c]) (c := rest) (by simp)
  have hbefore : (utf8 (maskOf m u)).length = size a := by rw [length_utf8, hsize]
  have hlength : (utf8 (maskOf m v)).length = c.utf8Size := by
    rw [length_utf8, hown, size_cons, size_nil, Nat.add_zero]
  rw [hmask, utf8_append, utf8_append, List.append_assoc, List.drop_left' hbefore,
    List.take_left' hlength]
  obtain ⟨⟨d, r⟩, rfl, hd⟩ := List.map_eq_singleton_iff.mp hv
  obtain rfl : d = c := hd
  have hcell : maskOf m [(d, r)] = if r.isMasked m then blanks d else [d] :=
    List.append_nil _
  have hself : utf8 [d] = String.utf8EncodeChar d := List.append_nil _
  rw [hcell]
  by_cases hmasked : r.isMasked m = true ∧ d ≠ '\n'
  · rw [if_pos hmasked.1, utf8_blanks hmasked.2]
    exact Or.inr rfl
  · rw [← hself]
    left
    split
    · rename_i hyes
      have hfeed : d = '\n' := by simpa [hyes] using hmasked
      rw [blanks, if_pos hfeed, hfeed]
    · rfl

theorem aligned_mask (m : Mask) (t : Text) : Aligned t (t.mask m) where
  length_eq := by rw [utf8_mask, utf8_eq_map_byteRegions t, List.length_map, List.length_map]
  newline_iff n := by
    rw [utf8_mask, utf8_eq_map_byteRegions t, List.getElem?_map, List.getElem?_map]
    cases (byteRegions t.regions)[n]? with
    | none => simp
    | some x => simp [maskByte_eq_newline_iff]
  byte_cases n b hb := by
    rw [utf8_eq_map_byteRegions t, List.getElem?_map] at hb
    obtain ⟨⟨b', r⟩, hget, rfl⟩ := Option.map_eq_some_iff.mp hb
    rw [utf8_mask, List.getElem?_map, hget, Option.map_some, Option.some.injEq,
      Option.some.injEq]
    exact maskByte_cases m r b'
  whole a c rest ht := by
    rw [ht]
    exact utf8_mask_whole m a c rest
  isBoundary n hn := by
    rw [isBoundary_iff_isCut] at hn ⊢
    exact hn.mask m

/-- Masking keeps a text aligned byte for byte. Done on its bytes it gives the bytes of the mask,
which are UTF-8 again, and ends in the region in which the text ends; bytes are blanked whole
characters at a time while line feeds stay where they are; and a mask blanks every byte that a
lesser one does. -/
theorem mask_byte_aligned (m : Mask) (t : Text) :
    maskBytes m .code (utf8 t) = (utf8 (t.mask m), t.endRegion) ∧
      String.fromUTF8? (maskBytes m .code (utf8 t)).1.toByteArray =
        some (String.ofList (t.mask m)) ∧
      Aligned t (t.mask m) ∧
      ∀ m', m.rank ≤ m'.rank → ∀ n : Nat, (utf8 (t.mask m))[n]? = some ' '.toUInt8 →
        (utf8 (t.mask m'))[n]? = some ' '.toUInt8 := by
  refine ⟨maskBytes_code m t, ?_, aligned_mask m t, fun m' hm n hn => ?_⟩
  · rw [maskBytes_code, fromUTF8?_utf8]
  · rw [utf8_mask, List.getElem?_map] at hn ⊢
    obtain ⟨x, hget, hx⟩ := Option.map_eq_some_iff.mp hn
    rw [hget, Option.map_some, maskByte_mono hm hx]

end Text

end SqlInsight
