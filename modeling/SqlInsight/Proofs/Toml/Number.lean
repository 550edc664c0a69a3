/-
Numbers without a sign that are written and read back. A run of digits at the end of a line is no
date, no time and no number with a fraction, so it is read as an integer; and the digits that are
written of a number begin with a zero only if they are nothing else.
-/
import SqlInsight.Toml.Reader

namespace SqlInsight.Toml

/-- A run of digits with the end of its line behind it. -/
structure DigitLine (t : Text) (digits rest : Text) : Prop where
  eq : t = digits ++ '\n' :: rest
  isDigit : ∀ c ∈ digits, c.isDigit = true

variable {t digits rest : Text}

theorem isDigitIn_ten {c : Char} (h : c.isDigit = true) : Text.isDigitIn 10 c = true := by
  have hbounds : 48 ≤ c.toNat ∧ c.toNat ≤ 57 := by
    simpa [Char.isDigit, UInt32.le_iff_toNat_le] using h
  simp only [Text.isDigitIn, Text.hexDigit?, h, ↓reduceIte, Option.any_some, decide_eq_true_eq]
  omega

/-- The digits of a number write it. -/
theorem ofDigits_toDigits (n : Nat) : Text.ofDigits 10 (Nat.toDigits 10 n) = n := by
  have hfold (ds : Text) (hds : ∀ c ∈ ds, c.isDigit = true) (start : Nat) :
      ds.foldl (fun n c => n * 10 + (Text.hexDigit? c).getD 0) start =
        Nat.ofDigitChars 10 ds start := by
    induction ds generalizing start with
    | nil => rfl
    | cons c more ih =>
        have hdigit : Text.hexDigit? c = some (c.toNat - 48) := if_pos (hds c List.mem_cons_self)
        rw [List.foldl_cons, ih fun d hd => hds d (List.mem_cons_of_mem c hd), hdigit,
          Nat.mul_comm start]
        rfl
  have hdigits : ∀ c ∈ Nat.toDigits 10 n, c.isDigit = true := fun c hc =>
    Nat.isDigit_of_mem_toDigits (by decide) (by decide) hc
  rw [Text.ofDigits, hfold _ hdigits]
  exact Nat.ofDigitChars_toDigits (by decide) (by decide)

/-- The digits of a number do not begin with a zero, unless it is one. -/
theorem head_toDigits {n : Nat} (hn : 0 < n) :
    ∃ c more, Nat.toDigits 10 n = c :: more ∧ c ≠ '0' := by
  induction n using Nat.strongRecOn with
  | ind n ih =>
      rcases Nat.lt_or_ge n 10 with hlt | hge
      · refine ⟨n.digitChar, [], Nat.toDigits_of_lt_base hlt, ?_⟩
        intro hzero
        have hvalue := congrArg Char.toNat hzero
        rw [Nat.toNat_digitChar_of_lt_ten hlt] at hvalue
        simp at hvalue
        omega
      · obtain ⟨c, more, hdigits, hc⟩ := ih (n / 10) (by omega) (by omega)
        have happend := Nat.toDigits_append_toDigits (b := 10) (n := n / 10) (d := n % 10)
          (by decide) (by omega) (by omega)
        rw [hdigits, Nat.div_add_mod] at happend
        exact ⟨c, _, happend.symm, hc⟩

/-- A run of digits ends at the end of the line. -/
theorem DigitLine.moreDigits (h : DigitLine t digits rest) :
    moreDigits 10 t = some (digits, '\n' :: rest) := by
  obtain ⟨rfl, hdigits⟩ := h
  induction digits with
  | nil => simp [Toml.moreDigits, Text.isDigitIn, Text.hexDigit?]
  | cons c more ih =>
      have hc := hdigits c List.mem_cons_self
      have hmore := ih fun d hd => hdigits d (List.mem_cons_of_mem c hd)
      rw [List.cons_append, Toml.moreDigits, if_pos (isDigitIn_ten hc), hmore]
      · rfl
      · rintro rfl
        exact absurd hc (by decide)

/-- What stands in a line of digits is a digit or the end of the line. -/
theorem DigitLine.after? (h : DigitLine t digits rest) {c : Char} (hc : c.isDigit = false)
    (hbreak : c ≠ '\n') : after? c t = none := by
  obtain ⟨rfl, hdigits⟩ := h
  cases digits with
  | nil => simp [Toml.after?, hbreak.symm]
  | cons d more =>
      have hd : d ≠ c := by
        rintro rfl
        rw [hdigits d List.mem_cons_self] at hc
        contradiction
      simp [Toml.after?, hd]

/-- What follows some digits of a line of digits is one, too. -/
theorem DigitLine.of_fixed? (h : DigitLine t digits rest) {count n : Nat} {t' : Text}
    (hfixed : fixed? count t = some (n, t')) : ∃ digits', DigitLine t' digits' rest := by
  obtain ⟨rfl, hdigits⟩ := h
  simp only [fixed?] at hfixed
  split at hfixed
  · rename_i hall
    obtain ⟨-, rfl⟩ := Prod.mk.inj (Option.some.inj hfixed)
    have hle : count ≤ digits.length := by
      apply Nat.le_of_not_lt
      intro hlt
      obtain ⟨k, rfl⟩ := Nat.exists_eq_add_of_lt hlt
      have hmem : '\n' ∈ (digits ++ '\n' :: rest).take (digits.length + k + 1) := by
        rw [Nat.add_assoc, List.take_length_add_append, List.take_succ_cons]
        exact List.mem_append_right _ List.mem_cons_self
      exact absurd (List.all_eq_true.mp hall.2 _ hmem) (by decide)
    refine ⟨digits.drop count, List.drop_append_of_le_length hle, fun c hc => ?_⟩
    exact hdigits c (List.mem_of_mem_drop hc)
  · contradiction

theorem DigitLine.moment? (h : DigitLine t digits rest) : moment? t = none := by
  have hdate : afterDate? t = none := by
    unfold afterDate?
    cases hfixed : fixed? 4 t with
    | none => rfl
    | some year =>
        obtain ⟨digits', hline⟩ := h.of_fixed? hfixed
        simp [hline.after? (c := '-') (by decide) (by decide)]
  have htime : afterTime? t = none := by
    unfold afterTime? afterMinute?
    cases hfixed : fixed? 2 t with
    | none => rfl
    | some hour =>
        obtain ⟨digits', hline⟩ := h.of_fixed? hfixed
        simp [hline.after? (c := ':') (by decide) (by decide)]
  rw [Toml.moment?, hdate, htime]
  rfl

/-- The digits of a number with the end of their line behind them. -/
theorem digitLine_toDigits (n : Nat) (rest : Text) :
    DigitLine (Nat.toDigits 10 n ++ '\n' :: rest) (Nat.toDigits 10 n) rest :=
  ⟨rfl, fun _ hc => Nat.isDigit_of_mem_toDigits (by decide) (by decide) hc⟩

theorem wholeDigits?_toDigits (n : Nat) (rest : Text) :
    wholeDigits? (Nat.toDigits 10 n ++ '\n' :: rest) = some (Nat.toDigits 10 n, '\n' :: rest) := by
  by_cases hzero : n = 0
  · subst hzero
    rfl
  · obtain ⟨c, more, hdigits, hc⟩ := head_toDigits (Nat.pos_of_ne_zero hzero)
    have hline := digitLine_toDigits n rest
    rw [hdigits] at hline ⊢
    have hmore : DigitLine (more ++ '\n' :: rest) more rest :=
      ⟨rfl, fun d hd => hline.isDigit d (List.mem_cons_of_mem c hd)⟩
    rw [List.cons_append, wholeDigits?, digitRun?,
      if_pos (isDigitIn_ten (hline.isDigit c List.mem_cons_self)), hmore.moreDigits]
    · rfl
    · exact fun _ heq => hc (List.cons.inj heq).1

theorem exists_digit_toDigits (n : Nat) :
    ∃ c more, Nat.toDigits 10 n = c :: more ∧ c.isDigit = true := by
  have hpos : 0 < (Nat.toDigits 10 n).length := Nat.length_toDigits_pos
  obtain ⟨c, more, hdigits⟩ := List.exists_cons_of_length_pos hpos
  have hmem : c ∈ Nat.toDigits 10 n := by
    rw [hdigits]
    exact List.mem_cons_self
  exact ⟨c, more, hdigits, Nat.isDigit_of_mem_toDigits (by decide) (by decide) hmem⟩

theorem sign_of_isDigit {c : Char} (hc : c.isDigit = true) (rest : Text) :
    sign (c :: rest) = (false, c :: rest) := by
  rw [sign]
  · rintro _ heq
    obtain ⟨rfl, -⟩ := List.cons.inj heq
    exact absurd hc (by decide)
  · rintro _ heq
    obtain ⟨rfl, -⟩ := List.cons.inj heq
    exact absurd hc (by decide)

theorem sign_toDigits (n : Nat) (rest : Text) :
    sign (Nat.toDigits 10 n ++ rest) = (false, Nat.toDigits 10 n ++ rest) := by
  obtain ⟨c, more, hdigits, hc⟩ := exists_digit_toDigits n
  rw [hdigits]
  exact sign_of_isDigit hc _

theorem decimal?_toDigits (n : Nat) (rest : Text) :
    decimal? (Nat.toDigits 10 n ++ '\n' :: rest) = none := by
  simp [decimal?, sign_toDigits, wholeDigits?_toDigits, fraction?, exponent?]

theorem special?_toDigits (n : Nat) (rest : Text) :
    special? (Nat.toDigits 10 n ++ rest) = none := by
  obtain ⟨c, more, hdigits, hc⟩ := exists_digit_toDigits n
  rw [special?, sign_toDigits, hdigits]
  simp only [List.cons_append]
  split
  · rename_i heq
    obtain ⟨rfl, -⟩ := List.cons.inj heq
    exact absurd hc (by decide)
  · rename_i heq
    obtain ⟨rfl, -⟩ := List.cons.inj heq
    exact absurd hc (by decide)
  · rfl

theorem ofInt64?_natural {n : Nat} (hn : n < signedBound) : ofInt64? n = some (.integer n) := by
  rw [ofInt64?, if_pos]
  constructor
  · have hneg : -Int.ofNat signedBound ≤ 0 := Int.neg_nonpos_of_nonneg (Int.natCast_nonneg _)
    exact Int.le_trans hneg (Int.natCast_nonneg n)
  · exact Int.ofNat_lt.mpr hn

/-- No letter for a base stands behind a zero. -/
theorem eq_newline_of_toDigits {n : Nat} {rest more : Text} {c : Char}
    (h : Nat.toDigits 10 n ++ '\n' :: rest = '0' :: c :: more) : c = '\n' := by
  by_cases hzero : n = 0
  · subst hzero
    have hdigits : Nat.toDigits 10 0 = ['0'] := rfl
    rw [hdigits] at h
    exact (List.cons.inj (List.cons.inj h).2).1.symm
  · obtain ⟨d, digits, hdigits, hd⟩ := head_toDigits (Nat.pos_of_ne_zero hzero)
    rw [hdigits] at h
    exact absurd (List.cons.inj h).1 hd

theorem integer?_toDigits {n : Nat} (hn : n < signedBound) (rest : Text) :
    integer? (Nat.toDigits 10 n ++ '\n' :: rest) = some (.integer n, '\n' :: rest) := by
  rw [integer?]
  · simp only [sign_toDigits, Option.bind_eq_bind, wholeDigits?_toDigits]
    rw [Option.bind_some, ofDigits_toDigits, if_neg Bool.false_ne_true, ofInt64?_natural hn]
    rfl
  · exact fun _ heq => absurd (eq_newline_of_toDigits heq) (by decide)
  · exact fun _ heq => absurd (eq_newline_of_toDigits heq) (by decide)
  · exact fun _ heq => absurd (eq_newline_of_toDigits heq) (by decide)

/-- A number without a sign is read back at the end of a line. -/
theorem number?_toDigits {n : Nat} (hn : n < signedBound) (rest : Text) :
    number? (Nat.toDigits 10 n ++ '\n' :: rest) = some (.integer n, '\n' :: rest) := by
  rw [number?, (digitLine_toDigits n rest).moment?, decimal?_toDigits, special?_toDigits,
    integer?_toDigits hn]
  rfl

end SqlInsight.Toml
