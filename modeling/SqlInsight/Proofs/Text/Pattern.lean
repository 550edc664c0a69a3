/-
What is found by the patterns for words and identifiers is written in the text. An identifier is a
stretch of the text, and so is what follows it; a dotted name is made up of identifiers, with blanks
and dots between them. A stretch of a masked text without blanks is one of the text itself.
-/
import SqlInsight.Proofs.Text.Bytes
import SqlInsight.Proofs.Text.Scan
import SqlInsight.Text.Pattern

namespace SqlInsight.Text

theorem trimStart_isSuffix (t : Text) : t.trimStart <:+ t :=
  List.dropWhile_suffix _

theorem afterWord?_isSuffix {word t rest : Text} (h : afterWord? word t = some rest) :
    rest <:+ t := by
  induction word, t using afterWord?.induct with
  | case1 t =>
      obtain rfl := Option.some.inj h
      exact List.suffix_refl _
  | case2 letter word => simp [afterWord?] at h
  | case3 letter word c t hletter ih =>
      rw [afterWord?, if_pos hletter] at h
      exact (ih h).trans (List.suffix_cons c t)
  | case4 letter word c t hletter =>
      rw [afterWord?, if_neg hletter] at h
      contradiction

theorem afterWordStart?_isSuffix {word t rest : Text} {before : Option Char}
    (h : afterWordStart? word before t = some rest) : rest <:+ t := by
  unfold afterWordStart? at h
  split at h
  · contradiction
  · exact afterWord?_isSuffix h

theorem afterBlanks?_isSuffix {t rest : Text} (h : afterBlanks? t = some rest) : rest <:+ t := by
  unfold afterBlanks? at h
  split at h
  · obtain rfl := Option.some.inj h
    exact trimStart_isSuffix t
  · contradiction

/-- A text that is one identifier: a run of name characters, or a stretch between delimiters that
does not hold the closing one. -/
inductive IsIdentifier : Text → Prop where
  | bare {c : Char} {more : Text} (first : beginsIdentifier c = true)
      (all : ∀ d ∈ more, continuesIdentifier d = true) : IsIdentifier (c :: more)
  | bracketed {inner : Text} (closing : ']' ∉ inner) : IsIdentifier ('[' :: inner ++ [']'])
  | quoted {inner : Text} (closing : '"' ∉ inner) : IsIdentifier ('"' :: inner ++ ['"'])

theorem drop_length_takeWhile {α : Type} (p : α → Bool) (xs : List α) :
    xs.drop (xs.takeWhile p).length = xs.dropWhile p := by
  induction xs with
  | nil => rfl
  | cons x rest ih => by_cases hx : p x <;> simp [hx, ih]

theorem exists_of_delimited? {opening closing : Char} {t name rest : Text}
    (h : delimited? opening closing t = some (name, rest)) :
    ∃ inner, t = inner ++ closing :: rest ∧ name = opening :: inner ++ [closing] ∧
      closing ∉ inner := by
  unfold delimited? at h
  simp only [drop_length_takeWhile] at h
  cases hdrop : t.dropWhile (· != closing) with
  | nil => simp [hdrop] at h
  | cons c more =>
      simp only [hdrop] at h
      split at h
      · contradiction
      · obtain ⟨rfl, rfl⟩ := Prod.mk.inj (Option.some.inj h)
        have hclosing : c = closing := by
          have hhead := List.head?_dropWhile_not (· != closing) t
          simpa [hdrop] using hhead
        refine ⟨t.takeWhile (· != closing), ?_, rfl, ?_⟩
        · rw [← hclosing, ← hdrop, hclosing, List.takeWhile_append_dropWhile]
        · intro hmem
          simpa using List.mem_takeWhile_imp hmem

theorem eq_append_of_identifier? {t name rest : Text} (h : identifier? t = some (name, rest)) :
    t = name ++ rest ∧ IsIdentifier name := by
  cases t with
  | nil => simp [identifier?] at h
  | cons c more =>
      rw [identifier?] at h
      split at h
      · rename_i hc
        obtain ⟨inner, rfl, rfl, hinner⟩ := exists_of_delimited? h
        exact ⟨by simp [hc], .bracketed hinner⟩
      · split at h
        · rename_i hc
          obtain ⟨inner, rfl, rfl, hinner⟩ := exists_of_delimited? h
          exact ⟨by simp [hc], .quoted hinner⟩
        · split at h
          · rename_i hfirst
            obtain ⟨rfl, rfl⟩ := Prod.mk.inj (Option.some.inj h)
            refine ⟨?_, .bare hfirst fun d hd => List.mem_takeWhile_imp hd⟩
            rw [drop_length_takeWhile, List.cons_append, List.takeWhile_append_dropWhile]
          · contradiction

theorem eq_append_of_mem_identifiers {t name rest : Text} (h : (name, rest) ∈ identifiers t) :
    t = name ++ rest := by
  unfold identifiers at h
  cases hfound : identifier? t with
  | none => simp [hfound] at h
  | some found =>
      obtain ⟨run, behind⟩ := found
      have hsplit := (eq_append_of_identifier? hfound).1
      simp only [hfound] at h
      split at h
      · obtain ⟨n, -, hn⟩ := List.mem_map.mp h
        obtain ⟨rfl, rfl⟩ := Prod.mk.inj hn
        rw [← List.append_assoc, List.take_append_drop, hsplit]
      · obtain ⟨rfl, rfl⟩ := Prod.mk.inj (List.mem_singleton.mp h)
        exact hsplit

/-- A text that goes on with identifiers after dots, with blanks around the dots. -/
inductive IsDotted : Text → List Text → Prop where
  | nil : IsDotted [] []
  | cons {before after name t : Text} {names : List Text}
      (hbefore : ∀ c ∈ before, CharClass.isBlank c = true)
      (hafter : ∀ c ∈ after, CharClass.isBlank c = true) (hname : IsIdentifier name)
      (rest : IsDotted t names) : IsDotted (before ++ '.' :: (after ++ (name ++ t))) (name :: names)

theorem exists_blanks_append_trimStart (t : Text) :
    ∃ before, t = before ++ t.trimStart ∧ ∀ c ∈ before, CharClass.isBlank c = true :=
  ⟨t.takeWhile CharClass.isBlank, List.takeWhile_append_dropWhile.symm,
    fun _ hc => List.mem_takeWhile_imp hc⟩

theorem exists_of_dottedRest (most taken : Nat) (t : Text) :
    ∃ middle names, t = middle ++ (dottedRest taken t most).2 ∧
      (dottedRest taken t most).1 = taken + middle.length ∧ IsDotted middle names := by
  induction most generalizing taken t with
  | zero => exact ⟨[], [], rfl, rfl, .nil⟩
  | succ most ih =>
      have hnone : ∃ middle names, t = middle ++ t ∧ taken = taken + middle.length ∧
          IsDotted middle names := ⟨[], [], rfl, rfl, .nil⟩
      rw [dottedRest]
      split
      · rename_i rest hdot
        split
        · rename_i name after hname
          obtain ⟨before, hbefore, hblank⟩ := exists_blanks_append_trimStart t
          obtain ⟨between, hbetween, hblank'⟩ := exists_blanks_append_trimStart rest
          obtain ⟨hsplit, hidentifier⟩ := eq_append_of_identifier? hname
          have ht : t = before ++ '.' :: (between ++ (name ++ after)) := by
            rw [← hsplit, ← hbetween, ← hdot, ← hbefore]
          obtain ⟨middle, names, hafter, hlength, hdotted⟩ :=
            ih (taken + (t.length - after.length)) after
          refine ⟨before ++ '.' :: (between ++ (name ++ middle)), name :: names, ?_, ?_,
            .cons hblank hblank' hidentifier hdotted⟩
          · conv_lhs => rw [ht, hafter]
            simp
          · rw [hlength, ht]
            simp only [List.length_append, List.length_cons]
            omega
        · exact hnone
      · exact hnone

/-- A dotted name is an identifier that goes on with others after dots. -/
theorem exists_of_dottedName? {most : Nat} {t dotted after : Text}
    (h : dottedName? most t = some (dotted, after)) :
    ∃ first more names, t = dotted ++ after ∧ dotted = first ++ more ∧ IsIdentifier first ∧
      IsDotted more names := by
  unfold dottedName? at h
  cases hfirst : identifier? t with
  | none => simp [hfirst] at h
  | some found =>
      obtain ⟨first, rest⟩ := found
      obtain ⟨hsplit, hidentifier⟩ := eq_append_of_identifier? hfirst
      obtain ⟨middle, names, hrest, htaken, hdotted⟩ := exists_of_dottedRest most first.length rest
      simp only [hfirst, Option.map_some] at h
      obtain ⟨hname, hafter⟩ := Prod.mk.inj (Option.some.inj h)
      have ht : t = (first ++ middle) ++ after := by
        rw [hsplit, hrest, hafter, List.append_assoc]
      refine ⟨first, middle, names, ?_, ?_, hidentifier, hdotted⟩
      · rw [← hname, htaken, ← List.length_append]
        conv_rhs => rw [ht, List.take_left' rfl]
        exact ht
      · rw [← hname, htaken, ← List.length_append]
        conv_lhs => rw [ht, List.take_left' rfl]

theorem exists_of_mem_matchesFrom {α : Type} {find : Option Char → Text → Option (α × Nat)}
    {before : Option Char} {skip : Nat} {t : Text} {x : α}
    (h : x ∈ matchesFrom find before skip t) :
    ∃ before' s length, s <:+ t ∧ find before' s = some (x, length) := by
  induction t generalizing before skip with
  | nil => simp [matchesFrom] at h
  | cons c rest ih =>
      have hrest {before : Option Char} {skip : Nat} (hx : x ∈ matchesFrom find before skip rest) :
          ∃ before' s length, s <:+ c :: rest ∧ find before' s = some (x, length) := by
        obtain ⟨before', s, length, hs, hfound⟩ := ih hx
        exact ⟨before', s, length, hs.trans (List.suffix_cons c rest), hfound⟩
      cases skip with
      | succ skip => exact hrest h
      | zero =>
          rw [matchesFrom] at h
          split at h
          · rename_i found length hfound
            rcases List.mem_cons.mp h with rfl | hmore
            · exact ⟨before, c :: rest, length, List.suffix_refl _, hfound⟩
            · exact hrest hmore
          · exact hrest h

theorem blanks_ne_nil (c : Char) : blanks c ≠ [] := by
  intro hnil
  have hsize := size_blanks c
  rw [hnil] at hsize
  exact absurd hsize (Nat.ne_of_lt c.utf8Size_pos)

theorem eq_nil_of_subset_blanks {c : Char} {w : Text}
    (hw : ∀ d ∈ w, CharClass.isBlank d = false) (h : w ⊆ blanks c) : w = [] := by
  cases w with
  | nil => rfl
  | cons d more =>
      have hblank := isBlank_of_mem_blanks (h List.mem_cons_self)
      rw [hw d List.mem_cons_self] at hblank
      contradiction

theorem isPrefix_of_isPrefix_maskOf {m : Mask} {regions : List (Char × Region)} {w : Text}
    (hw : ∀ d ∈ w, CharClass.isBlank d = false) (h : w <+: maskOf m regions) :
    w <+: regions.map Prod.fst := by
  induction regions generalizing w with
  | nil => exact h
  | cons x rest ih =>
      obtain ⟨c, r⟩ := x
      change w <+: (if r.isMasked m then blanks c else [c]) ++ maskOf m rest at h
      cases w with
      | nil => exact List.nil_prefix
      | cons d more =>
          split at h
          · cases hblanks : blanks c with
            | nil => exact absurd hblanks (blanks_ne_nil c)
            | cons e others =>
                rw [hblanks] at h
                have hmem : d ∈ blanks c := by
                  rw [hblanks, (List.cons_prefix_cons.mp h).1]
                  exact List.mem_cons_self
                have hblank := isBlank_of_mem_blanks hmem
                rw [hw d List.mem_cons_self] at hblank
                contradiction
          · obtain ⟨rfl, hmore⟩ := List.cons_prefix_cons.mp h
            have hrest := ih (fun e he => hw e (List.mem_cons_of_mem d he)) hmore
            exact List.cons_prefix_cons.mpr ⟨rfl, hrest⟩

theorem isInfix_of_isInfix_maskOf {m : Mask} {regions : List (Char × Region)} {w : Text}
    (hw : ∀ d ∈ w, CharClass.isBlank d = false) (h : w <:+: maskOf m regions) :
    w <:+: regions.map Prod.fst := by
  induction regions with
  | nil => exact h
  | cons x rest ih =>
      obtain ⟨c, r⟩ := x
      by_cases hmasked : r.isMasked m = true
      · have hbehind : w <:+: blanks c ++ maskOf m rest := by
          simpa only [maskOf, List.flatMap_cons, if_pos hmasked] using h
        rw [List.map_cons]
        rcases List.infix_append_iff.mp hbehind with hin | hrest | ⟨w₁, w₂, rfl, hin, hprefix⟩
        · rw [eq_nil_of_subset_blanks hw hin.subset]
          exact List.nil_infix
        · exact List.infix_cons (ih hrest)
        · have hnil := eq_nil_of_subset_blanks
            (fun d hd => hw d (List.mem_append_left w₂ hd)) hin.subset
          subst hnil
          exact List.infix_cons (isPrefix_of_isPrefix_maskOf hw hprefix).isInfix
      · have hcons : maskOf m ((c, r) :: rest) = c :: maskOf m rest := by
          simp only [maskOf, List.flatMap_cons, if_neg hmasked, List.singleton_append]
        have hparts := h
        rw [hcons, List.infix_cons_iff, ← hcons] at hparts
        rcases hparts with hprefix | hrest
        · exact (isPrefix_of_isPrefix_maskOf hw hprefix).isInfix
        · exact List.infix_cons (ih hrest)

/-- A stretch of a masked text without blanks is one of the text itself. -/
theorem isInfix_of_isInfix_mask {m : Mask} {t w : Text}
    (hw : ∀ d ∈ w, CharClass.isBlank d = false) (h : w <:+: t.mask m) : w <:+: t := by
  have hinfix := isInfix_of_isInfix_maskOf hw h
  rwa [map_fst_regions] at hinfix

end SqlInsight.Text
