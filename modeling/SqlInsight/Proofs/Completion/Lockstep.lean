/-
Reading in lockstep. Every pattern for a word, an identifier, an alias or a list takes as much off
each of two texts that differ in quiet names only: it fits both or neither, and what follows it is
read in lockstep again.
-/
import SqlInsight.Proofs.Completion.QuietNames
import SqlInsight.Proofs.Related

namespace SqlInsight

open Text

namespace Completion

section Reading

variable {s t : Text}

theorem Alike.refl (s : Text) : Alike s s := by
  induction s with
  | nil => exact .nil
  | cons c s ih => exact .cons c ih

theorem Alike.append_left (a : Text) (h : Alike s t) : Alike (a ++ s) (a ++ t) := by
  induction a with
  | nil => exact h
  | cons c a ih => exact .cons c ih

theorem Alike.head? (h : Alike s t) : s.head? = t.head? := by
  cases h <;> rfl

/-- Texts that are alike both begin with a character that opens no name, or neither does. -/
theorem Alike.head_cases {c : Char} (h : Alike s t) (hc : c ≠ '[' ∧ c ≠ '"') :
    (∃ s' t', s = c :: s' ∧ t = c :: t' ∧ Alike s' t') ∨
      (s.head? ≠ some c ∧ t.head? ≠ some c) := by
  cases h with
  | nil => exact Or.inr ⟨by simp, by simp⟩
  | cons d rest =>
      by_cases hd : d = c
      · exact Or.inl ⟨_, _, by rw [hd], by rw [hd], rest⟩
      · exact Or.inr ⟨by simpa using hd, by simpa using hd⟩
  | name delimits =>
      right
      cases delimits
      · exact ⟨by simpa using hc.1.symm, by simpa using hc.1.symm⟩
      · exact ⟨by simpa using hc.2.symm, by simpa using hc.2.symm⟩

theorem Alike.dropWhile {p : Char → Bool} (hp : ∀ c, steers c = true → p c = false)
    (h : Alike s t) : Alike (s.dropWhile p) (t.dropWhile p) := by
  induction h with
  | nil => exact .nil
  | cons c rest ih =>
      by_cases hc : p c = true
      · rwa [List.dropWhile_cons_of_pos hc, List.dropWhile_cons_of_pos hc]
      · rw [List.dropWhile_cons_of_neg hc, List.dropWhile_cons_of_neg hc]
        exact .cons c rest
  | @name opening _ _ _ _ _ _ delimits left right rest =>
      have hopening : ¬p opening = true := by simp [hp _ (steers_of_delimits delimits).1]
      rw [List.dropWhile_cons_of_neg hopening, List.dropWhile_cons_of_neg hopening]
      exact .name delimits left right rest

theorem Alike.takeWhile {p : Char → Bool} (hp : ∀ c, steers c = true → p c = false)
    (h : Alike s t) : s.takeWhile p = t.takeWhile p := by
  induction h with
  | nil => rfl
  | cons c rest ih =>
      by_cases hc : p c = true
      · rw [List.takeWhile_cons_of_pos hc, List.takeWhile_cons_of_pos hc, ih]
      · rw [List.takeWhile_cons_of_neg hc, List.takeWhile_cons_of_neg hc]
  | @name opening _ _ _ _ _ _ delimits =>
      have hopening : ¬p opening = true := by simp [hp _ (steers_of_delimits delimits).1]
      rw [List.takeWhile_cons_of_neg hopening, List.takeWhile_cons_of_neg hopening]

theorem Alike.trimStart (h : Alike s t) : Alike s.trimStart t.trimStart :=
  h.dropWhile fun _ => isBlank_of_steers

theorem Alike.afterBlanks? (h : Alike s t) :
    Option.Rel Alike (Text.afterBlanks? s) (Text.afterBlanks? t) := by
  rw [Text.afterBlanks?, Text.afterBlanks?, h.head?]
  split
  · exact .some h.trimStart
  · exact .none

theorem Alike.afterWord? {w : Text} (hword : ∀ letter ∈ w, CharClass.isWord letter = true)
    (h : Alike s t) : Option.Rel Alike (Text.afterWord? w s) (Text.afterWord? w t) := by
  induction w generalizing s t with
  | nil => exact .some h
  | cons letter w ih =>
      cases h with
      | nil => exact .none
      | cons c rest =>
          rw [Text.afterWord?, Text.afterWord?]
          split
          · exact ih (fun l hl => hword l (List.mem_cons_of_mem letter hl)) rest
          · exact .none
      | name delimits =>
          have hopening := isLetter_of_steers (hword letter List.mem_cons_self)
            (steers_of_delimits delimits).1
          rw [Text.afterWord?, Text.afterWord?, hopening]
          exact .none

theorem Alike.afterWordStart? {word : Text} {before before' : Option Char}
    (hword : ∀ letter ∈ word, CharClass.isWord letter = true)
    (hbefore : before.any CharClass.isWord = before'.any CharClass.isWord) (h : Alike s t) :
    Option.Rel Alike (Text.afterWordStart? word before s)
      (Text.afterWordStart? word before' t) := by
  rw [Text.afterWordStart?, Text.afterWordStart?, hbefore]
  split
  · exact .none
  · exact h.afterWord? hword

theorem Alike.endsWord (h : Alike s t) : Text.endsWord s = Text.endsWord t := by
  rw [Text.endsWord, Text.endsWord, h.head?]

/-- Up to the first closing delimiter or parenthesis two texts that are alike are read in
lockstep; a quotation mark may be the one that opens a name. -/
theorem Alike.afterFirst? {c : Char} (hc : steers c = true) (h : Alike s t) :
    Option.Rel Together (Text.afterFirst? c s) (Text.afterFirst? c t) := by
  have hpass {x : Text} (hx : Quiet x) (closing : Char) (rest : Text) :
      Text.afterFirst? c (x ++ closing :: rest) = Text.afterFirst? c (closing :: rest) := by
    have hmem : c ∉ x := by
      intro hmem
      rw [hx.signs c hmem] at hc
      contradiction
    clear hx
    induction x with
    | nil => rfl
    | cons d x ih =>
        have hd : d ≠ c := fun heq => hmem (heq ▸ List.mem_cons_self)
        rw [List.cons_append, Text.afterFirst?, if_neg hd, ih fun hx =>
          hmem (List.mem_cons_of_mem d hx)]
  induction h with
  | nil => exact .none
  | cons d rest ih =>
      rw [Text.afterFirst?, Text.afterFirst?]
      split
      · exact .some (.alike rest)
      · exact ih
  | name delimits left right rest ih =>
      rw [Text.afterFirst?, Text.afterFirst?]
      split
      · exact .some (.inside (.intro left.tame (closes_of_delimits delimits) _)
          (.intro right.tame (closes_of_delimits delimits) _))
      · rw [hpass left.toQuiet, hpass right.toQuiet, Text.afterFirst?, Text.afterFirst?]
        split
        · exact .some (.alike rest)
        · exact ih

theorem map_snd_delimited? (opening closing : Char) (t : Text) :
    (delimited? opening closing t).map Prod.snd =
      if t.head? = some closing then none else Text.afterFirst? closing t := by
  have hdrop (t : Text) :
      Text.afterFirst? closing t = (t.dropWhile (· != closing)).tail? := by
    induction t with
    | nil => rfl
    | cons c t ih =>
        rw [Text.afterFirst?]
        by_cases hc : c = closing
        · simp [hc]
        · simp [hc, ih]
  unfold delimited?
  simp only [drop_length_takeWhile, hdrop]
  cases t with
  | nil => rfl
  | cons c t =>
      by_cases hc : c = closing
      · simp [hc]
      · cases hcase : t.dropWhile (· != closing) <;> simp [hc, hcase]

theorem Alike.delimited? {closing : Char} (hc : steers closing = true) (h : Alike s t)
    (opening : Char) : Option.Rel (fun a b => Together a.2 b.2)
      (Text.delimited? opening closing s) (Text.delimited? opening closing t) := by
  have hrel : Option.Rel Together ((Text.delimited? opening closing s).map Prod.snd)
      ((Text.delimited? opening closing t).map Prod.snd) := by
    rw [map_snd_delimited?, map_snd_delimited?, h.head?]
    split
    · exact .none
    · exact h.afterFirst? hc
  revert hrel
  generalize Text.delimited? opening closing s = a, Text.delimited? opening closing t = b
  cases a <;> cases b <;> simp

/-- A quiet name is an identifier. -/
theorem identifier?_of_quiet {opening closing : Char} {r : Region} {x : Text}
    (delimits : Delimits opening closing r) (hx : Quiet x) (s : Text) :
    identifier? (opening :: (x ++ closing :: s)) = some (opening :: x ++ [closing], s) := by
  have hmem : closing ∉ x := by
    intro hmem
    have hsign := hx.signs closing hmem
    rw [(steers_of_delimits delimits).2] at hsign
    contradiction
  cases delimits with
  | brackets => exact identifier?_bracketed hx.ne_nil hmem s
  | quotes => exact identifier?_quoted hx.ne_nil hmem s

theorem Alike.identifier? (h : Alike s t) : Option.Rel (fun a b => Together a.2 b.2)
    (Text.identifier? s) (Text.identifier? t) := by
  cases h with
  | nil => exact .none
  | cons c rest =>
      rw [Text.identifier?, Text.identifier?]
      split
      · exact rest.delimited? (by decide) '['
      · split
        · exact rest.delimited? (by decide) '"'
        · split
          · simp only [drop_length_takeWhile]
            exact .some (.alike (rest.dropWhile fun _ => continuesIdentifier_of_steers))
          · exact .none
  | name delimits left right rest =>
      rw [identifier?_of_quiet delimits left.toQuiet,
        identifier?_of_quiet delimits right.toQuiet]
      exact .some (.alike rest)

theorem identifiers_cons_of_beginsIdentifier {c : Char} (h : beginsIdentifier c = true)
    (s : Text) : identifiers (c :: s) =
      prefixesOf (c :: s.takeWhile continuesIdentifier) (s.dropWhile continuesIdentifier) := by
  obtain ⟨hbracket, hquote⟩ := beginsIdentifier_ne h
  unfold identifiers
  rw [identifier?, if_neg hbracket, if_neg hquote, if_pos h]
  simp only [List.head?_cons, Option.any_some, h, if_true, drop_length_takeWhile]

theorem identifiers_of_not_beginsIdentifier (h : s.head?.any beginsIdentifier = false) :
    identifiers s = (identifier? s).toList := by
  unfold identifiers
  simp only [h, Bool.false_eq_true, if_false]
  cases identifier? s <;> rfl

/-- What may be taken for an identifier ends in lockstep, too. -/
theorem Alike.identifiers (h : Alike s t) : List.Forall₂ (fun a b => Together a.2 b.2)
    (Text.identifiers s) (Text.identifiers t) := by
  by_cases hbegins : s.head?.any beginsIdentifier = true
  · cases h with
    | nil => contradiction
    | cons c rest =>
        have hc : beginsIdentifier c = true := hbegins
        rw [identifiers_cons_of_beginsIdentifier hc, identifiers_cons_of_beginsIdentifier hc,
          rest.takeWhile fun _ => continuesIdentifier_of_steers, prefixesOf, prefixesOf,
          List.forall₂_map_left_iff, List.forall₂_map_right_iff, List.forall₂_same]
        intro n _
        exact .alike ((rest.dropWhile fun _ => continuesIdentifier_of_steers).append_left _)
    | name delimits =>
        rw [List.head?_cons, Option.any_some,
          beginsIdentifier_of_steers (steers_of_delimits delimits).1] at hbegins
        contradiction
  · rw [Bool.not_eq_true] at hbegins
    rw [identifiers_of_not_beginsIdentifier hbegins,
      identifiers_of_not_beginsIdentifier (h.head? ▸ hbegins)]
    exact h.identifier?.toList

theorem Alike.opened? (h : Alike s t) :
    Option.Rel Alike (Completion.opened? s) (Completion.opened? t) := by
  have hnone {u : Text} (hu : u.head? ≠ some '(') : Completion.opened? u = none := by
    cases u with
    | nil => rfl
    | cons c rest =>
        rw [List.head?_cons, ne_eq, Option.some.injEq] at hu
        simp [Completion.opened?, hu]
  rcases h.head_cases (c := '(') (by decide) with ⟨s', t', rfl, rfl, hrest⟩ | ⟨hs, ht⟩
  · exact .some hrest
  · rw [hnone hs, hnone ht]
    exact .none

theorem Together.opened? (h : Together s t) :
    Option.Rel Alike (Completion.opened? s.trimStart) (Completion.opened? t.trimStart) := by
  cases h with
  | alike h => exact h.trimStart.opened?
  | inside left right =>
      rw [left.opened?, right.opened?]
      exact .none

theorem Together.bodyAfter? (h : Together s t) : Option.Rel Alike
    (References.bodyAfter? s) (References.bodyAfter? t) := by
  cases h with
  | inside left right =>
      rw [left.bodyAfter?, right.bodyAfter?]
      exact .none
  | alike h =>
      rw [bodyAfter?_eq, bodyAfter?_eq]
      exact (h.trimStart.afterWord? (by decide)).bind fun _ _ hab => hab.trimStart.opened?

/-- Whatever the names and the columns, the bodies of common table expressions begin in lockstep. -/
theorem Together.cteAfterName? (h : Together s t) (left right : Text) :
    Option.Rel (fun a b => Alike a.rest b.rest)
      (References.cteAfterName? left s) (References.cteAfterName? right t) := by
  rw [cteAfterName?_eq, cteAfterName?_eq]
  refine Option.Rel.or (h.opened?.bind fun _ _ hinside => ?_) ?_
  · exact (hinside.afterFirst? (by decide)).bind fun _ _ hrest =>
      hrest.bodyAfter?.map fun _ _ hbody => hbody
  · exact h.bodyAfter?.map fun _ _ hbody => hbody

theorem Alike.any_eq {p : Char → Bool} (hp : ∀ c, p c = true → steers c = true) (h : Alike s t) :
    s.any p = t.any p := by
  have hquiet {x : Text} (hx : Quiet x) : x.any p = false := by
    rw [List.any_eq_false]
    intro c hc hpc
    have hsign := hx.signs c hc
    rw [hp c hpc] at hsign
    contradiction
  induction h with
  | nil => rfl
  | cons c _ ih => rw [List.any_cons, List.any_cons, ih]
  | name delimits left right _ ih =>
      simp only [List.any_cons, List.any_append, hquiet left.toQuiet, hquiet right.toQuiet, ih]

theorem Together.openColumns? (h : Together s t) :
    Option.Rel Alike (Completion.openColumns? s) (Completion.openColumns? t) := by
  rw [openColumns?_eq, openColumns?_eq]
  refine h.opened?.bind fun a b hab => ?_
  have hany : (a.any fun c => c == '(' || c == ')') = b.any fun c => c == '(' || c == ')' := by
    refine hab.any_eq fun c hc => ?_
    rw [Bool.or_eq_true, beq_iff_eq, beq_iff_eq] at hc
    rcases hc with rfl | rfl <;> decide
  rw [hany]
  split
  · exact .none
  · exact .some hab

theorem dottedRest_of_head? (h : s.trimStart.head? ≠ some '.') (taken most : Nat) :
    dottedRest taken s most = (taken, s) := by
  cases most with
  | zero => rfl
  | succ most =>
      rw [Text.dottedRest]
      split
      · rename_i rest hdot
        rw [hdot] at h
        exact absurd rfl h
      · rfl

theorem dottedRest_of_trimStart {rest : Text} (h : s.trimStart = '.' :: rest) (taken most : Nat) :
    dottedRest taken s (most + 1) =
      match identifier? rest.trimStart with
      | some (_, after) => dottedRest (taken + (s.length - after.length)) after most
      | none => (taken, s) := by
  rw [Text.dottedRest]
  split
  · rename_i rest' hdot
    rw [h] at hdot
    obtain rfl := (List.cons.inj hdot).2
    rfl
  · rename_i hnone
    exact absurd h (hnone rest)

theorem length_of_identifier?_behindDot {rest : Text} {found : Text × Text}
    (h : s.trimStart = '.' :: rest) (hfound : identifier? rest.trimStart = some found) :
    found.2.length < s.length := by
  have hafter := ((identifier?_isSuffix hfound).trans (trimStart_isSuffix rest)).length_le
  have hrest := (h ▸ trimStart_isSuffix s).length_le
  rw [List.length_cons] at hrest
  omega

/-- Identifiers joined by dots end in lockstep, if none is left out. -/
theorem Together.dottedRest (h : Together s t) {m n : Nat} (hm : s.length ≤ m) (hn : t.length ≤ n)
    (taken taken' : Nat) :
    Together (Text.dottedRest taken s m).2 (Text.dottedRest taken' t n).2 := by
  induction hlength : s.length using Nat.strong_induction_on
    generalizing s t m n taken taken' with
  | h l ih =>
      cases h with
      | inside left right => exact .inside (left.dottedRest _ _) (right.dottedRest _ _)
      | alike h =>
          rcases h.trimStart.head_cases (c := '.') (by decide) with
            ⟨s', t', hs, ht, hrest⟩ | ⟨hs, ht⟩
          · have hpos := (hs ▸ trimStart_isSuffix s).length_le
            have hpos' := (ht ▸ trimStart_isSuffix t).length_le
            rw [List.length_cons] at hpos hpos'
            obtain ⟨m, rfl⟩ : ∃ k, m = k + 1 := Nat.exists_eq_add_one.mpr (by omega)
            obtain ⟨n, rfl⟩ : ∃ k, n = k + 1 := Nat.exists_eq_add_one.mpr (by omega)
            rw [dottedRest_of_trimStart hs, dottedRest_of_trimStart ht]
            have hfound := hrest.trimStart.identifier?
            cases ha : Text.identifier? (Text.trimStart s') with
            | none =>
                cases hb : Text.identifier? (Text.trimStart t') with
                | none => exact .alike h
                | some found => simp [ha, hb] at hfound
            | some found =>
                cases hb : Text.identifier? (Text.trimStart t') with
                | none => simp [ha, hb] at hfound
                | some found' =>
                    rw [ha, hb, Option.rel_some_some] at hfound
                    have hshorter := length_of_identifier?_behindDot hs ha
                    have hshorter' := length_of_identifier?_behindDot ht hb
                    exact ih _ (by omega) hfound (by omega) (by omega) _ _ rfl
          · rw [dottedRest_of_head? hs, dottedRest_of_head? ht]
            exact .alike h

theorem Alike.dottedName? (h : Alike s t) : Option.Rel (fun a b => Together a.2 b.2)
    (Text.dottedName? s.length s) (Text.dottedName? t.length t) := by
  unfold Text.dottedName?
  have hbound {u : Text} {found : Text × Text} (hfound : Text.identifier? u = some found) :
      found.2.length ≤ u.length := (identifier?_isSuffix hfound).length_le
  have hrel := h.identifier?
  cases ha : Text.identifier? s with
  | none =>
      cases hb : Text.identifier? t with
      | none => exact .none
      | some found => simp [ha, hb] at hrel
  | some found =>
      cases hb : Text.identifier? t with
      | none => simp [ha, hb] at hrel
      | some found' =>
          rw [ha, hb, Option.rel_some_some] at hrel
          exact .some (hrel.dottedRest (hbound ha) (hbound hb) _ _)

theorem Together.afterSet? (h : Together s t) :
    Option.Rel Alike (Completion.afterSet? s) (Completion.afterSet? t) := by
  cases h with
  | inside left right =>
      rw [left.afterSet?, right.afterSet?]
      exact .none
  | alike h =>
      have hword : Option.Rel Alike
          ((Text.afterBlanks? s).bind (Text.afterWord? "set".toList))
          ((Text.afterBlanks? t).bind (Text.afterWord? "set".toList)) :=
        h.afterBlanks?.bind fun _ _ hab => hab.afterWord? (by decide)
      unfold Completion.afterSet?
      revert hword
      generalize (Text.afterBlanks? s).bind _ = a, (Text.afterBlanks? t).bind _ = b
      rintro (⟨hab⟩ | -)
      · rw [Option.filter_some, Option.filter_some, hab.endsWord]
        split
        · exact .some hab
        · exact .none
      · exact .none

/-- Columns are set in lockstep behind a table and what may be its alias. -/
theorem Together.findSome?_afterAlias (h : Together s t) : Option.Rel Alike
    ((afterAlias s).findSome? Completion.afterSet?)
    ((afterAlias t).findSome? Completion.afterSet?) := by
  cases h with
  | inside left right =>
      have hnone {u : Text} (hu : Inside u) :
          (afterAlias u).findSome? Completion.afterSet? = none := by
        rw [List.findSome?_eq_none_iff]
        exact fun v hv => (hu.afterAlias v hv).afterSet?
      rw [hnone left, hnone right]
      exact .none
  | alike h =>
      have hrel : List.Forall₂ Together (afterAlias s) (afterAlias t) := by
        have hblanks := h.afterBlanks?
        unfold afterAlias
        revert hblanks
        generalize Text.afterBlanks? s = a, Text.afterBlanks? t = b
        rintro (⟨hab⟩ | -)
        · have hexplicit : Option.Rel (fun a b : Text × Text => Together a.2 b.2) _ _ :=
            (hab.afterWord? (w := "as".toList) (by decide)).bind fun _ _ hmore =>
              hmore.afterBlanks?.bind fun _ _ hnamed => hnamed.identifier?
          refine List.rel_append (List.rel_append ?_ ?_) (.cons (.alike h) .nil)
          · exact (hexplicit.map fun _ _ hrest => hrest).toList
          · exact (hab.identifier?.map fun _ _ hrest => hrest).toList
        · exact .cons (.alike h) .nil
      exact hrel.findSome? fun _ _ hrest => hrest.afterSet?

end Reading

end Completion

end SqlInsight
