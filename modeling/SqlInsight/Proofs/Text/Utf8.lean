/-
The UTF-8 form of a text, as its list of bytes. An ASCII character is a byte of its own, and no byte
of another character is one, so an ASCII byte in the UTF-8 form is that character in the text. The
boundaries of the bytes are the offsets at which the text can be cut, and a slice is checked to have
its ends at two of them, in order.
-/
import SqlInsight.Proofs.Text.Cut

namespace SqlInsight

/-- A result, or the ends of a slice that a text does not have. -/
abbrev Sliced (α : Type) := Except (Nat × Nat) α

namespace Text

/-- The bytes of the UTF-8 form. -/
def utf8 (t : Text) : List UInt8 :=
  t.flatMap String.utf8EncodeChar

@[simp] theorem utf8_nil : utf8 [] = [] := rfl

theorem utf8_cons (c : Char) (t : Text) :
    utf8 (c :: t) = String.utf8EncodeChar c ++ utf8 t :=
  List.flatMap_cons

theorem utf8_append (a b : Text) : utf8 (a ++ b) = utf8 a ++ utf8 b :=
  List.flatMap_append

theorem length_utf8 (t : Text) : (utf8 t).length = size t := by
  induction t with
  | nil => rfl
  | cons c rest ih =>
      rw [utf8_cons, List.length_append, String.length_utf8EncodeChar, ih, size_cons]

/-- The bytes of the UTF-8 form are read back as the text. -/
theorem fromUTF8?_utf8 (t : Text) :
    String.fromUTF8? (utf8 t).toByteArray = some (String.ofList t) := by
  have hvalid : (utf8 t).toByteArray.IsValidUTF8 := ⟨t, rfl⟩
  rw [String.fromUTF8?, dif_pos hvalid]
  rfl

section Ascii

variable {c d : Char}

theorem utf8EncodeChar_ascii (hc : c.utf8Size = 1) : String.utf8EncodeChar c = [c.toUInt8] :=
  String.utf8EncodeChar_eq_singleton hc

/-- A text of ASCII characters has one byte for each of them. -/
theorem utf8_of_ascii {t : Text} (h : ∀ c ∈ t, c.utf8Size = 1) : utf8 t = t.map Char.toUInt8 := by
  induction t with
  | nil => rfl
  | cons c rest ih =>
      rw [utf8_cons, utf8EncodeChar_ascii (h c List.mem_cons_self),
        ih fun d hd => h d (List.mem_cons_of_mem c hd)]
      rfl

theorem toNat_toUInt8 (hc : c.utf8Size = 1) : c.toUInt8.toNat = c.toNat := by
  have hle : c.val.toNat ≤ 127 := Char.utf8Size_eq_one_iff.mp hc
  change c.val.toNat % 256 = c.val.toNat
  exact Nat.mod_eq_of_lt (by omega)

theorem toUInt8_lt (hc : c.utf8Size = 1) : c.toUInt8 < 128 := by
  have hle : c.val.toNat ≤ 127 := Char.utf8Size_eq_one_iff.mp hc
  rw [UInt8.lt_iff_toNat_lt, toNat_toUInt8 hc]
  exact Nat.lt_succ_of_le hle

/-- ASCII characters are told apart by their bytes. -/
theorem toUInt8_inj (hc : c.utf8Size = 1) (hd : d.utf8Size = 1) :
    c.toUInt8 = d.toUInt8 ↔ c = d := by
  constructor
  · intro h
    have hnat := congrArg UInt8.toNat h
    rw [toNat_toUInt8 hc, toNat_toUInt8 hd] at hnat
    exact Char.toNat_inj.mp hnat
  · rintro rfl
    rfl

theorem le_ofNat {n : Nat} (hlow : 128 ≤ n) (hhigh : n < 256) : 128 ≤ UInt8.ofNat n := by
  rw [UInt8.le_iff_toNat_le, UInt8.toNat_ofNat_of_lt' hhigh]
  exact hlow

/-- No byte of another character is that of an ASCII character. -/
theorem le_of_mem_utf8EncodeChar (hc : c.utf8Size ≠ 1) {b : UInt8}
    (hb : b ∈ String.utf8EncodeChar c) : 128 ≤ b := by
  have hnot : ¬c.val.toNat ≤ 127 := fun hle => hc (Char.utf8Size_eq_one_iff.mpr hle)
  rw [String.utf8EncodeChar.eq_1, if_neg hnot] at hb
  split_ifs at hb <;> simp only [List.mem_cons, List.not_mem_nil, or_false] at hb
  · rcases hb with rfl | rfl <;> exact le_ofNat (by omega) (by omega)
  · rcases hb with rfl | rfl | rfl <;> exact le_ofNat (by omega) (by omega)
  · rcases hb with rfl | rfl | rfl | rfl <;> exact le_ofNat (by omega) (by omega)

/-- The byte of an ASCII character is found in no other character. -/
theorem toUInt8_mem_utf8EncodeChar_iff (hd : d.utf8Size = 1) :
    d.toUInt8 ∈ String.utf8EncodeChar c ↔ c = d := by
  by_cases hc : c.utf8Size = 1
  · rw [utf8EncodeChar_ascii hc, List.mem_singleton, toUInt8_inj hd hc, eq_comm]
  · constructor
    · intro hmem
      exact absurd (toUInt8_lt hd) (UInt8.not_lt.mpr (le_of_mem_utf8EncodeChar hc hmem))
    · rintro rfl
      exact absurd hd hc

/-- A text begins with an ASCII character exactly if its bytes begin with the byte of it. -/
theorem head?_utf8_eq_iff (hd : d.utf8Size = 1) (t : Text) :
    (utf8 t).head? = some d.toUInt8 ↔ t.head? = some d := by
  cases t with
  | nil => simp
  | cons c rest =>
      obtain ⟨b, more, hbytes⟩ :=
        List.exists_cons_of_ne_nil (String.utf8EncodeChar_ne_nil (c := c))
      rw [utf8_cons, hbytes, List.cons_append, List.head?_cons, List.head?_cons,
        Option.some.injEq, Option.some.injEq]
      constructor
      · rintro rfl
        exact (toUInt8_mem_utf8EncodeChar_iff hd).mp (hbytes ▸ List.mem_cons_self)
      · rintro rfl
        rw [utf8EncodeChar_ascii hd] at hbytes
        exact (List.cons.inj hbytes).1.symm

end Ascii

/-- A boundary of the bytes is an offset at which the text can be cut. -/
theorem isBoundary_iff_isCut (n : Nat) (t : Text) : t.isBoundary n = true ↔ IsCut t n := by
  induction t generalizing n with
  | nil =>
      rw [isBoundary, beq_iff_eq]
      constructor
      · rintro rfl
        exact isCut_size_append [] []
      · rintro ⟨a, b, hnil, rfl⟩
        rw [(List.append_eq_nil_iff.mp hnil.symm).1, size_nil]
  | cons c rest ih =>
      rw [isBoundary, Bool.or_eq_true, beq_iff_eq, Bool.and_eq_true, decide_eq_true_eq, ih]
      constructor
      · rintro (rfl | ⟨hle, a, b, rfl, hsize⟩)
        · exact isCut_size_append [] (c :: rest)
        · refine ⟨c :: a, b, rfl, ?_⟩
          rw [size_cons]
          omega
      · rintro ⟨a, b, hcut, rfl⟩
        cases a with
        | nil => exact Or.inl rfl
        | cons d more =>
            obtain ⟨rfl, rfl⟩ := List.cons.inj hcut
            refine Or.inr ⟨Nat.le_add_right _ _, ?_⟩
            rw [size_cons, Nat.add_sub_cancel_left]
            exact isCut_size_append more b

/-- What stands between two parts of a text is the slice between its boundaries. -/
theorem slice_isBoundary_of_eq {t before own after : Text} {m n : Nat}
    (ht : t = before ++ own ++ after) (hm : m = size before) (hn : n = size (before ++ own)) :
    t.slice m n = own ∧ t.isBoundary m = true ∧ t.isBoundary n = true := by
  refine ⟨slice_of_eq ht hm hn, ?_, ?_⟩
  · exact (isBoundary_iff_isCut m t).mpr ⟨before, own ++ after, by rw [ht, List.append_assoc], hm⟩
  · exact (isBoundary_iff_isCut n t).mpr ⟨before ++ own, after, ht, hn⟩

/-- The slice between two offsets, if the text has it. -/
def sliced (t : Text) (first last : Nat) : Sliced Text :=
  if first ≤ last && t.isBoundary first && t.isBoundary last then .ok (t.slice first last)
  else .error (first, last)

theorem sliced_eq {t : Text} {first last : Nat} (hfirst : IsCut t first) (hlast : IsCut t last)
    (hle : first ≤ last) : t.sliced first last = .ok (t.slice first last) := by
  rw [sliced, (isBoundary_iff_isCut first t).mpr hfirst, (isBoundary_iff_isCut last t).mpr hlast,
    decide_eq_true hle]
  rfl

theorem ok_bind {α β : Type} (a : α) (f : α → Sliced β) :
    ((.ok a : Sliced α) >>= f) = f a := rfl

end Text

end SqlInsight
