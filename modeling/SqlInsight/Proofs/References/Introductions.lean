/-
The two ways to find where a common table expression is introduced. To tell whether a text that
stays open is worth reading, any run of characters passes for a name; when the names in a text that
cannot be read are searched for, only an identifier does. So the expression that a text is read for
is found in it by the search exactly if its name is an identifier.
-/
import SqlInsight.Proofs.References.Written
import SqlInsight.Proofs.Text.Matches

namespace SqlInsight

open References

namespace Text

/-- Whether a character goes on with a name that is a run of characters. -/
def runsOn (c : Char) : Bool :=
  !(CharClass.isBlank c || c == '(')

/-- The name between delimiters at the start of a text, which may be empty. -/
def delimitedName? (t : Text) : Option (Text × Text) :=
  match t with
  | '[' :: rest => (afterFirst? ']' rest).map fun after =>
      ('[' :: rest.takeWhile (· != ']') ++ [']'], after)
  | '"' :: rest => (afterFirst? '"' rest).map fun after =>
      ('"' :: rest.takeWhile (· != '"') ++ ['"'], after)
  | _ => none

/-- The names that a common table expression at the start of a text may have, each with what
follows it, in the order they are tried: the one in delimiters, then the parts of a run. -/
def introducedNames (t : Text) : List (Text × Text) :=
  (delimitedName? t).toList ++ prefixesOf (t.takeWhile runsOn) (t.dropWhile runsOn)

/-- The name of the common table expression at the start of a text. -/
def introducedName? (t : Text) : Option Text :=
  ((introducedNames t).find? fun x => followsName x.2).map Prod.fst

/-- The name of the common table expression that is introduced by a word which begins a text after
`before`. -/
def introduction? (before : Option Char) (t : Text) : Option Text :=
  (afterWordStart? "with".toList before t).bind fun rest =>
    (afterBlanks? rest).bind introducedName?

/-- The first place in a text where a common table expression is introduced, and its name. -/
structure FirstIntroduction (t u v name : Text) : Prop where
  cut : t = u ++ v
  here : introduction? u.getLast? v = some name
  first : ∀ u' v', t = u' ++ v' → u'.length < u.length → introduction? u'.getLast? v' = none

theorem FirstIntroduction.unique {t u v name u' v' name' : Text} (h : FirstIntroduction t u v name)
    (h' : FirstIntroduction t u' v' name') : u = u' ∧ v = v' ∧ name = name' := by
  have hlength : u.length = u'.length := by
    rcases Nat.lt_trichotomy u.length u'.length with hlt | heq | hlt
    · have hnone := h'.first u v h.cut hlt
      rw [h.here] at hnone
      contradiction
    · exact heq
    · have hnone := h.first u' v' h'.cut hlt
      rw [h'.here] at hnone
      contradiction
  obtain ⟨rfl, rfl⟩ := List.append_inj (h.cut.symm.trans h'.cut) hlength
  exact ⟨rfl, rfl, Option.some.inj (h.here.symm.trans h'.here)⟩

theorem opensBody_eq (t : Text) : opensBody t = (bodyAfter? t).isSome := by
  unfold opensBody bodyAfter?
  cases afterWord? "as".toList t.trimStart with
  | none => rfl
  | some rest =>
      simp only
      cases rest.trimStart with
      | nil => rfl
      | cons c body =>
          by_cases hc : c = '('
          · rw [hc]
            rfl
          · simp [hc]

/-- The columns and the body follow a name if the search finds them there. -/
theorem followsName_eq (name t : Text) : followsName t = (cteAfterName? name t).isSome := by
  unfold followsName cteAfterName?
  rw [Option.isSome_or, Option.isSome_map, opensBody_eq, Bool.or_comm]
  congr 1
  cases t.trimStart with
  | nil => rfl
  | cons c inside =>
      by_cases hc : c = '('
      · subst hc
        cases hclose : afterFirst? ')' inside with
        | none => simp [hclose]
        | some rest => simp [hclose, opensBody_eq]
      · simp [hc]

theorem prefixesOf_cons (c : Char) (run t : Text) : prefixesOf (c :: run) t =
    (prefixesOf run t).map (fun x => (c :: x.1, x.2)) ++ [([c], run ++ t)] :=
  prefixesOf_append [c] run t

theorem bodyAfterRun_eq (t : Text) : bodyAfterRun t =
    (prefixesOf (t.takeWhile runsOn) (t.dropWhile runsOn)).any fun x => followsName x.2 := by
  induction t with
  | nil => rfl
  | cons c rest ih =>
      by_cases hc : runsOn c = true
      · rw [List.takeWhile_cons_of_pos hc, List.dropWhile_cons_of_pos hc, prefixesOf_cons,
          List.any_append, List.any_map, List.takeWhile_append_dropWhile, bodyAfterRun, ih]
        change (runsOn c && _) = _
        rw [hc, Bool.true_and, Bool.or_comm]
        simp [Function.comp_def]
      · rw [List.takeWhile_cons_of_neg hc]
        change (runsOn c && _) = _
        rw [Bool.eq_false_iff.mpr hc]
        rfl

theorem opensCte_eq (t : Text) :
    opensCte t = ((afterBlanks? t).bind introducedName?).isSome := by
  unfold opensCte afterBlanks?
  split
  · rename_i hblank
    rw [hblank, Bool.true_and, Option.bind_some, introducedName?, Option.isSome_map,
      List.isSome_find?, introducedNames, List.any_append, bodyAfterRun_eq]
    congr 1
    generalize t.trimStart = named
    have hany (found : Option Text) (name : Text) :
        (found.map fun after => (name, after)).toList.any (fun x => followsName x.2) =
          found.any followsName := by
      cases found with
      | none => rfl
      | some after => exact Bool.or_false _
    unfold delimitedName?
    split
    · exact (hany _ _).symm
    · exact (hany _ _).symm
    · simp
  · rename_i hblank
    rw [Bool.eq_false_iff.mpr hblank]
    rfl

theorem isSome_introduction? (before : Option Char) (t : Text) :
    (introduction? before t).isSome =
      (!before.any CharClass.isWord && (afterWord? "with".toList t).any opensCte) := by
  unfold introduction? afterWordStart?
  split
  · rename_i hword
    rw [hword]
    rfl
  · rename_i hword
    rw [Bool.eq_false_iff.mpr hword, Bool.not_false, Bool.true_and]
    cases afterWord? "with".toList t with
    | none => rfl
    | some rest => exact (opensCte_eq rest).symm

/-- A common table expression is introduced somewhere if there is a first place where one is. -/
theorem introducesCte_iff (before : Option Char) (t : Text) : introducesCte before t = true ↔
    ∃ u v name, t = u ++ v ∧ introduction? (u.getLast?.or before) v = some name ∧
      ∀ u' v', t = u' ++ v' → u'.length < u.length →
        introduction? (u'.getLast?.or before) v' = none := by
  induction t generalizing before with
  | nil =>
      refine ⟨fun h => absurd h (by simp [introducesCte]), ?_⟩
      rintro ⟨u, v, name, huv, hhere, -⟩
      obtain ⟨rfl, rfl⟩ := List.append_eq_nil_iff.mp huv.symm
      simp [introduction?, afterWordStart?, afterWord?] at hhere
  | cons c rest ih =>
      rw [introducesCte, Bool.or_eq_true, ← isSome_introduction?, ih]
      constructor
      · intro h
        by_cases hhere : (introduction? before (c :: rest)).isSome = true
        · obtain ⟨name, hname⟩ := Option.isSome_iff_exists.mp hhere
          exact ⟨[], c :: rest, name, rfl, hname, fun u' v' _ hlt => absurd hlt (Nat.not_lt_zero _)⟩
        · obtain ⟨u, v, name, rfl, hname, hfirst⟩ := h.resolve_left hhere
          refine ⟨c :: u, v, name, rfl, by rwa [getLast?_cons_or], fun u' v' huv hlt => ?_⟩
          cases u' with
          | nil =>
              rw [List.nil_append] at huv
              rw [← huv]
              simpa using hhere
          | cons d u' =>
              obtain ⟨rfl, hrest⟩ := List.cons.inj huv
              rw [getLast?_cons_or]
              exact hfirst u' v' hrest (Nat.lt_of_succ_lt_succ hlt)
      · rintro ⟨u, v, name, huv, hname, hfirst⟩
        cases u with
        | nil =>
            left
            rw [List.nil_append] at huv
            rw [huv, Option.isSome_iff_exists]
            exact ⟨name, hname⟩
        | cons d u =>
            obtain ⟨rfl, rfl⟩ := List.cons.inj huv
            rw [getLast?_cons_or] at hname
            refine Or.inr ⟨u, v, name, rfl, hname, fun u' v' hrest hlt => ?_⟩
            have hnone := hfirst (c :: u') v' (by rw [hrest]; rfl) (Nat.succ_lt_succ hlt)
            rwa [getLast?_cons_or] at hnone

theorem hasCte_iff (t : Text) : t.hasCte = true ↔
    ∃ u v name, FirstIntroduction (t.mask .literals) u v name := by
  rw [hasCte, introducesCte_iff]
  simp only [Option.or_none]
  constructor
  · rintro ⟨u, v, name, cut, here, first⟩
    exact ⟨u, v, name, cut, here, first⟩
  · rintro ⟨u, v, name, cut, here, first⟩
    exact ⟨u, v, name, cut, here, first⟩

theorem eq_append_of_delimited {opening closing : Char} {inside name rest : Text}
    (h : ((afterFirst? closing inside).map fun after =>
      (opening :: inside.takeWhile (· != closing) ++ [closing], after)) = some (name, rest)) :
    opening :: inside = name ++ rest := by
  obtain ⟨after, hafter, hname⟩ := Option.map_eq_some_iff.mp h
  obtain ⟨inner, rfl, hinner⟩ := eq_append_of_afterFirst? hafter
  obtain ⟨rfl, rfl⟩ := Prod.mk.inj hname
  rw [takeWhile_ne_append hinner]
  simp

/-- Names that may be introduced at the start of a text stand there. -/
theorem eq_append_of_mem_introducedNames {t name rest : Text}
    (h : (name, rest) ∈ introducedNames t) : t = name ++ rest := by
  rcases List.mem_append.mp h with hdelimited | hrun
  · rw [Option.mem_toList] at hdelimited
    unfold delimitedName? at hdelimited
    split at hdelimited
    · exact eq_append_of_delimited hdelimited
    · exact eq_append_of_delimited hdelimited
    · contradiction
  · obtain ⟨-, more, hsplit, rfl⟩ := mem_prefixesOf.mp hrun
    rw [← List.append_assoc, ← hsplit, List.takeWhile_append_dropWhile]

theorem trimStart_of_runsOn {c : Char} (h : runsOn c = true) (t : Text) :
    trimStart (c :: t) = c :: t ∧ c ≠ '(' := by
  simp only [runsOn, Bool.not_eq_true', Bool.or_eq_false_iff, beq_eq_false_iff_ne] at h
  exact ⟨List.dropWhile_cons_of_neg (by simp [h.1]), h.2⟩

theorem runsOn_of_beginsIdentifier {c : Char} (h : beginsIdentifier c = true) :
    runsOn c = true := by
  have hopen : c ≠ '(' := by
    rintro rfl
    exact absurd h (by decide)
  simp [runsOn, (isOrdinary_of_beginsIdentifier h).blank, hopen]

theorem runsOn_of_continuesIdentifier {c : Char} (h : continuesIdentifier c = true) :
    runsOn c = true := by
  have hopen : c ≠ '(' := by
    rintro rfl
    exact absurd h (by decide)
  simp [runsOn, (isOrdinary_of_continuesIdentifier h).blank, hopen]

/-- Characters of a run behind which the columns or the body of a common table expression follow
can only be those of the word in front of the body. -/
theorem continuesIdentifier_of_followsName {run t : Text} (hrun : ∀ c ∈ run, runsOn c = true)
    (h : followsName (run ++ t) = true) : ∀ c ∈ run, continuesIdentifier c = true := by
  have hcontinues {letter c : Char} (hletter : CharClass.isWord letter = true)
      (hc : isLetter letter c = true) : continuesIdentifier c = true := by
    simp [continuesIdentifier, isWord_of_isLetter hletter hc]
  match run, hrun with
  | [], _ => simp
  | c :: more, hrun =>
      obtain ⟨htrim, hopen⟩ := trimStart_of_runsOn (hrun c List.mem_cons_self) (more ++ t)
      have hbody : opensBody (c :: more ++ t) = true := by
        rw [followsName, Bool.or_eq_true] at h
        refine h.resolve_right ?_
        rw [List.cons_append, htrim]
        simp [hopen]
      rw [opensBody, List.cons_append, htrim] at hbody
      by_cases hc : isLetter 'a' c = true
      · match more, hrun with
        | [], _ =>
            intro d hd
            rw [List.mem_singleton.mp hd]
            exact hcontinues (by decide) hc
        | d :: others, hrun =>
            by_cases hd : isLetter 's' d = true
            · cases others with
              | nil =>
                  intro e he
                  rcases List.mem_pair.mp he with rfl | rfl
                  · exact hcontinues (by decide) hc
                  · exact hcontinues (by decide) hd
              | cons e others =>
                  obtain ⟨htrim, hopen⟩ := trimStart_of_runsOn (hrun e (by simp)) (others ++ t)
                  have hafter : afterWord? "as".toList (c :: d :: e :: (others ++ t)) =
                      some (e :: (others ++ t)) := by
                    simp [afterWord?, hc, hd]
                  simp only [List.cons_append, hafter, htrim] at hbody
                  simp [hopen] at hbody
            · simp [afterWord?, hc, hd] at hbody
      · simp [afterWord?, hc] at hbody

theorem followsName_eq_false_of_mem {run t : Text} {d : Char} (hrun : ∀ c ∈ run, runsOn c = true)
    (hd : d ∈ run) (hstop : continuesIdentifier d = false) : followsName (run ++ t) = false := by
  rw [Bool.eq_false_iff]
  intro hfollows
  rw [continuesIdentifier_of_followsName hrun hfollows d hd] at hstop
  contradiction

theorem introducedNames_of_delimited {t : Text} {x : Text × Text}
    (hdelimited : delimitedName? t = some x) (hfound : identifiers t = [x]) :
    ∃ others, introducedNames t = identifiers t ++ others := by
  rw [introducedNames, hdelimited, hfound]
  exact ⟨_, rfl⟩

section Bare

variable {c : Char} {run rest : Text} (hfirst : beginsIdentifier c = true)
  (hrun : ∀ d ∈ run, continuesIdentifier d = true)

include hfirst

/-- The names that are longer than the bare identifier which a text begins with come first. -/
theorem introducedNames_of_bare (hruns : ∀ d ∈ c :: run, runsOn d = true) :
    introducedNames (c :: run ++ rest) =
      (prefixesOf (rest.takeWhile runsOn) (rest.dropWhile runsOn)).map
        (fun x => (c :: run ++ x.1, x.2)) ++ prefixesOf (c :: run) rest := by
  obtain ⟨hbracket, hquote⟩ := beginsIdentifier_ne hfirst
  have hdelimited : delimitedName? (c :: run ++ rest) = none := by
    simp [delimitedName?, hbracket, hquote]
  rw [introducedNames, hdelimited, List.takeWhile_append_of_pos hruns,
    List.dropWhile_append_of_pos hruns, prefixesOf_append, List.takeWhile_append_dropWhile]
  rfl

include hrun

theorem runsOn_of_bare : ∀ d ∈ c :: run, runsOn d = true := by
  intro d hd
  rcases List.mem_cons.mp hd with rfl | hd
  · exact runsOn_of_beginsIdentifier hfirst
  · exact runsOn_of_continuesIdentifier (hrun d hd)

/-- A name that is longer than the bare identifier which a text begins with is no identifier, and
nothing follows a part of that identifier. -/
theorem longer_of_bare (hstop : ∀ d ∈ rest.head?, continuesIdentifier d = false) :
    ∀ x ∈ (prefixesOf (rest.takeWhile runsOn) (rest.dropWhile runsOn)).map
        (fun x => (c :: run ++ x.1, x.2)),
      isIdentifier x.1 = false ∧ ∀ y ∈ prefixesOf (c :: run) rest, followsName y.2 = false := by
  intro x hx
  obtain ⟨⟨part, behind⟩, hpart, rfl⟩ := List.mem_map.mp hx
  obtain ⟨hne, more, hsplit, -⟩ := mem_prefixesOf.mp hpart
  obtain ⟨d, shorter, rfl⟩ := List.exists_cons_of_ne_nil hne
  have hd : continuesIdentifier d = false := by
    apply hstop d
    rw [← List.takeWhile_append_dropWhile (p := runsOn) (l := rest), hsplit]
    rfl
  constructor
  · rw [Bool.eq_false_iff]
    intro hlonger
    rw [continuesIdentifier_of_isIdentifier hfirst hlonger d (by simp)] at hd
    contradiction
  · rintro ⟨name, after⟩ hy
    obtain ⟨-, left, hleft, rfl⟩ := mem_prefixesOf.mp hy
    rw [← List.takeWhile_append_dropWhile (p := runsOn) (l := rest), ← List.append_assoc]
    refine followsName_eq_false_of_mem (fun e he => ?_) (by simp [hsplit]) hd
    rcases List.mem_append.mp he with he | he
    · exact runsOn_of_bare hfirst hrun e (hleft ▸ List.mem_append_right name he)
    · exact List.mem_takeWhile_imp he

end Bare

/-- Among the names that may be introduced at the start of a text are the identifiers that it may
begin with, in their order. In front of them there are only longer runs that are no identifiers, and
if there are any, then nothing follows the identifiers. -/
theorem exists_introducedNames (t : Text) :
    ∃ longer others, introducedNames t = longer ++ (identifiers t ++ others) ∧
      ∀ x ∈ longer, isIdentifier x.1 = false ∧
        ∀ y ∈ identifiers t, followsName y.2 = false := by
  cases hfound : identifier? t with
  | none =>
      have hnone : identifiers t = [] := by
        unfold identifiers
        simp only [hfound]
      exact ⟨[], introducedNames t, by rw [hnone]; rfl, fun x hx => absurd hx List.not_mem_nil⟩
  | some found =>
      obtain ⟨name, rest⟩ := found
      obtain ⟨rfl, hname⟩ := isIdentifier_of_identifier? hfound
      cases (isIdentifier_iff.mp hname).1 with
      | bare hfirst hrun =>
          have hstop := head?_of_identifier?_bare hfirst hfound
          rw [identifiers_bare hfirst hrun hstop,
            introducedNames_of_bare hfirst (runsOn_of_bare hfirst hrun)]
          exact ⟨_, [], by rw [List.append_nil], longer_of_bare hfirst hrun hstop⟩
      | @bracketed inner hinner =>
          have hdelimited : delimitedName? ('[' :: inner ++ [']'] ++ rest) =
              some ('[' :: inner ++ [']'], rest) := by
            simp [delimitedName?, afterFirst?_append hinner, takeWhile_ne_append hinner]
          obtain ⟨others, hothers⟩ := introducedNames_of_delimited hdelimited
            (identifiers_of_delimited beginsIdentifier_bracket hfound)
          exact ⟨[], others, hothers, fun x hx => absurd hx List.not_mem_nil⟩
      | @quoted inner hinner =>
          have hdelimited : delimitedName? ('"' :: inner ++ ['"'] ++ rest) =
              some ('"' :: inner ++ ['"'], rest) := by
            simp [delimitedName?, afterFirst?_append hinner, takeWhile_ne_append hinner]
          obtain ⟨others, hothers⟩ := introducedNames_of_delimited hdelimited
            (identifiers_of_delimited beginsIdentifier_quote hfound)
          exact ⟨[], others, hothers, fun x hx => absurd hx List.not_mem_nil⟩

/-- The name of a common table expression at the start of a text is what the search takes for it if
it is an identifier; otherwise the search takes nothing for it. -/
theorem find?_identifiers {t name : Text} (h : introducedName? t = some name) :
    ((identifiers t).find? fun x => followsName x.2).map Prod.fst =
      if isIdentifier name = true then some name else none := by
  obtain ⟨longer, others, hnames, hlonger⟩ := exists_introducedNames t
  obtain ⟨x, hx, rfl⟩ := Option.map_eq_some_iff.mp h
  rw [hnames, List.find?_append, Option.or_eq_some_iff] at hx
  rcases hx with hx | ⟨-, hx⟩
  · obtain ⟨hnot, hnone⟩ := hlonger x (List.mem_of_find?_eq_some hx)
    have hfind : ((identifiers t).find? fun x => followsName x.2) = none := by
      rw [List.find?_eq_none]
      intro y hy
      simp [hnone y hy]
    rw [hfind, if_neg (by simp [hnot])]
    rfl
  · rw [List.find?_append, Option.or_eq_some_iff] at hx
    rcases hx with hx | ⟨hnone, hx⟩
    · have hidentifier := (mem_identifiers_iff.mp (List.mem_of_find?_eq_some hx)).2
      rw [hx, if_pos hidentifier]
      rfl
    · rw [hnone, if_neg]
      · rfl
      · intro hidentifier
        have hmem : x ∈ introducedNames t := by
          rw [hnames]
          exact List.mem_append_right _ (List.mem_append_right _ (List.mem_of_find?_eq_some hx))
        have hfound := mem_identifiers_iff.mpr ⟨eq_append_of_mem_introducedNames hmem, hidentifier⟩
        have hfollows : followsName x.2 = true := by
          simpa using List.find?_some hx
        exact List.find?_eq_none.mp hnone _ hfound hfollows

theorem findSome?_eq_bind_find? {α β : Type} {f : α → Option β} {p : α → Bool}
    (h : ∀ x, (f x).isSome = p x) (list : List α) : list.findSome? f = (list.find? p).bind f := by
  induction list with
  | nil => rfl
  | cons x rest ih =>
      rw [List.findSome?_cons, List.find?_cons, ← h]
      cases hx : f x with
      | none => exact ih
      | some y => simp [hx]

end Text

namespace References

open Text

theorem cteAt?_of_afterWordStart? {before : Option Char} {t rest : Text}
    (h : afterWordStart? "with".toList before t = some rest) :
    cteAt? before t = ((identifiers rest.trimStart).findSome? fun (name, after) =>
      cteAfterName? name after).map fun head => (head, t.length - head.rest.length) := by
  cases t with
  | nil => simp [afterWordStart?, afterWord?] at h
  | cons c more =>
      have hc : c ≠ ',' := by
        rintro rfl
        simp [afterWordStart?, afterWord?, isLetter] at h
      have hword : afterWordStart? ['w', 'i', 't', 'h'] before (c :: more) = some rest := h
      simp [cteAt?, hc, hword]

/-- Where a common table expression is introduced, the search finds it if its name is an identifier,
and otherwise finds nothing. -/
theorem cteAt?_of_introduction? {before : Option Char} {t name : Text}
    (h : introduction? before t = some name) :
    (cteAt? before t).map (·.1.name) = if isIdentifier name = true then some name else none := by
  obtain ⟨rest, hrest, h⟩ := Option.bind_eq_some_iff.mp h
  obtain ⟨named, hnamed, h⟩ := Option.bind_eq_some_iff.mp h
  have htrim : rest.trimStart = named := by
    unfold afterBlanks? at hnamed
    split at hnamed
    · exact Option.some.inj hnamed
    · contradiction
  rw [cteAt?_of_afterWordStart? hrest, htrim, Option.map_map]
  have hfollows (x : Text × Text) : (cteAfterName? x.1 x.2).isSome = followsName x.2 :=
    (followsName_eq x.1 x.2).symm
  rw [findSome?_eq_bind_find? hfollows, ← find?_identifiers h]
  cases hfound : (identifiers named).find? fun x => followsName x.2 with
  | none => rfl
  | some found =>
      have hsome : (cteAfterName? found.1 found.2).isSome = true := by
        rw [hfollows]
        simpa using List.find?_some hfound
      obtain ⟨head, hhead⟩ := Option.isSome_iff_exists.mp hsome
      rw [Option.bind_some, hhead]
      exact congrArg some (isInfix_of_cteAfterName? hhead).1

/-- The name, in lower case, under which a common table expression found in a text is bound. -/
def CteHead.key (head : CteHead) : Text :=
  (Name.unquote head.name).lower

/-- What a common table expression found in a text is bound as. -/
def CteHead.binding (head : CteHead) : Binding :=
  Binding.ofCte (Name.unquote head.name) ((head.columns.map commaNames).getD []) none

theorem lookup_ctes_bindHead (r : References) (head : CteHead) (key : Text) :
    (r.bindHead head).ctes.lookup key =
      if key = head.key then some head.binding else r.ctes.lookup key :=
  Keyed.lookup_put head.key head.binding r.ctes key

/-- Under the name of one that was found there is one that was found. -/
theorem exists_of_mem_foldl_bindHead {heads : List CteHead} {head : CteHead} (h : head ∈ heads)
    (r : References) : ∃ other ∈ heads, other.key = head.key ∧
      (heads.foldl bindHead r).ctes.lookup head.key = some other.binding := by
  induction heads using List.reverseRecOn with
  | nil => contradiction
  | append_singleton heads last ih =>
      rw [List.foldl_append, List.foldl_cons, List.foldl_nil, lookup_ctes_bindHead]
      by_cases hkey : head.key = last.key
      · exact ⟨last, by simp, hkey.symm, if_pos hkey⟩
      · rcases List.mem_append.mp h with hmem | hlast
        · obtain ⟨other, hother, hsame, hlookup⟩ := ih hmem
          exact ⟨other, List.mem_append_left _ hother, hsame, by rw [if_neg hkey, hlookup]⟩
        · rw [List.mem_singleton.mp hlast] at hkey
          contradiction

theorem ctes_scanTables (r : References) (t : Text) (fuel : Nat) :
    (r.scanTables t fuel).ctes = r.ctes := by
  induction fuel generalizing r t with
  | zero => rfl
  | succ fuel ih =>
      rw [scanTables]
      split
      · rfl
      · split
        · rfl
        · split
          · rfl
          · dsimp only
            split
            · rw [ih, ctes_bindTable]
            · rw [ctes_bindTable]

theorem ctes_foldl_scanTables (lists : List Text) (r : References) :
    (lists.foldl (fun r list => r.scanTables list list.length) r).ctes = r.ctes := by
  induction lists generalizing r with
  | nil => rfl
  | cons list rest ih => rw [List.foldl_cons, ih, ctes_scanTables]

theorem ctes_ofText (t : Text) :
    (ofText t).ctes = ((cteHeads (t.mask .literals)).foldl bindHead {}).ctes :=
  ctes_foldl_scanTables _ _

/-- Whether a common table expression that the search finds goes over a place where one is
introduced. It begins in front of the place with what introduces none by itself: a comma, or the
word without a blank behind it. -/
def GoesOver (u v : Text) (other : CteHead) : Prop :=
  ∃ u₁ u₂ n, u = u₁ ++ u₂ ∧ cteAt? u₁.getLast? (u₂ ++ v) = some (other, n) ∧ u₂.length < n ∧
    (u₂.head? = some ',' ∨ ∃ rest, afterWordStart? "with".toList u₁.getLast? (u₂ ++ v) = some rest ∧
      rest.head?.any CharClass.isBlank = false)

/-- Behind the word and a blank, what the search finds is introduced. -/
theorem isSome_introduction?_of_cteAt? {before : Option Char} {t rest : Text}
    (hrest : afterWordStart? "with".toList before t = some rest)
    (hblank : rest.head?.any CharClass.isBlank = true) (h : (cteAt? before t).isSome = true) :
    (introduction? before t).isSome = true := by
  rw [cteAt?_of_afterWordStart? hrest, Option.isSome_map, List.findSome?_isSome_iff] at h
  obtain ⟨x, hx, hfollows⟩ := h
  rw [← followsName_eq] at hfollows
  obtain ⟨longer, others, hnames, -⟩ := exists_introducedNames rest.trimStart
  rw [introduction?, hrest, Option.bind_some, afterBlanks?, if_pos hblank, Option.bind_some,
    introducedName?, Option.isSome_map, List.find?_isSome, hnames]
  exact ⟨x, List.mem_append_right _ (List.mem_append_left _ hx), hfollows⟩

theorem goesOver_of_covers {t u v name : Text} {other : CteHead}
    (hfirst : FirstIntroduction t u v name) (h : Covers cteAt? none u v other) :
    GoesOver u v other := by
  obtain ⟨u₁, u₂, n, rfl, hne, hfind, hlength⟩ := h
  rw [Option.or_none] at hfind
  refine ⟨u₁, u₂, n, rfl, hfind, hlength, ?_⟩
  obtain ⟨c, more, rfl⟩ := List.exists_cons_of_ne_nil hne
  by_cases hc : c = ','
  · exact Or.inl (by rw [hc]; rfl)
  · right
    cases hrest : afterWordStart? "with".toList u₁.getLast? (c :: more ++ v) with
    | none =>
        have hword : afterWordStart? ['w', 'i', 't', 'h'] u₁.getLast? (c :: (more ++ v)) = none :=
          hrest
        simp [cteAt?, hc, hword] at hfind
    | some rest =>
        refine ⟨rest, rfl, ?_⟩
        rw [Bool.eq_false_iff]
        intro hblank
        have hsome := isSome_introduction?_of_cteAt? hrest hblank (by rw [hfind]; rfl)
        rw [hfirst.first u₁ (c :: more ++ v) (by rw [hfirst.cut, List.append_assoc]) (by simp)]
          at hsome
        contradiction

/-- What a text that stays open is read for is also found in it when it cannot be read: the common
table expression that it introduces first is bound under its name, unless another one that is found
goes over the place. That holds of names that are identifiers; of any other name nothing is
found. -/
theorem ctes_of_hasCte {t : Text} (h : t.hasCte = true) :
    ∃ u v name, FirstIntroduction (t.mask .literals) u v name ∧
      (isIdentifier name = true →
        (∃ head ∈ cteHeads (t.mask .literals), head.key = (Name.unquote name).lower ∧
          (ofText t).ctes.lookup (Name.unquote name).lower = some head.binding) ∨
        ∃ other ∈ cteHeads (t.mask .literals), GoesOver u v other) ∧
      (isIdentifier name = false → cteAt? u.getLast? v = none) := by
  obtain ⟨u, v, name, hintroduction⟩ := (hasCte_iff t).mp h
  have hfound := cteAt?_of_introduction? hintroduction.here
  refine ⟨u, v, name, hintroduction, fun hname => ?_, fun hname => ?_⟩
  · rw [if_pos hname] at hfound
    obtain ⟨⟨head, length⟩, hhead, hkey⟩ := Option.map_eq_some_iff.mp hfound
    have hv : v ≠ [] := by
      rintro rfl
      simp [cteAt?, afterWordStart?, afterWord?] at hhead
    have hmem := mem_allMatches_or_covers hv hhead
    rw [← hintroduction.cut] at hmem
    refine hmem.imp (fun hmem => ?_) fun hover => ?_
    · obtain ⟨other, hother, hsame, hlookup⟩ := exists_of_mem_foldl_bindHead hmem {}
      have hheadKey : head.key = (Name.unquote name).lower := by rw [CteHead.key, hkey]
      rw [hheadKey] at hsame hlookup
      exact ⟨other, hother, hsame, by rw [ctes_ofText, cteHeads, hlookup]⟩
    · obtain ⟨other, hother, hcovers⟩ := hover
      exact ⟨other, hother, goesOver_of_covers hintroduction hcovers⟩
  · rw [if_neg (by simp [hname])] at hfound
    exact Option.map_eq_none_iff.mp hfound

/-- A name in brackets in front of a list of columns is bound to a common table expression with
these columns. -/
theorem ctes_of_hasCte_bracketed :
    let t : Text := "SELECT 1 WITH [a b] (x) AS (SELECT 1) SELECT * FROM".toList
    t.hasCte = true ∧ isIdentifier "[a b]".toList = true ∧
      (∃ u v, FirstIntroduction (t.mask .literals) u v "[a b]".toList ∧
        ∀ other ∈ cteHeads (t.mask .literals), ¬GoesOver u v other) ∧
      (ofText t).ctes.lookup "a b".toList = some (.ofCte "a b".toList ["x".toList] none) := by
  intro t
  let u : Text := "SELECT 1 ".toList
  let v : Text := "WITH [a b] (x) AS (SELECT 1) SELECT * FROM".toList
  have hcte : t.hasCte = true := by decide
  have hname : isIdentifier "[a b]".toList = true := by decide
  have hhere : FirstIntroduction (t.mask .literals) u v "[a b]".toList := by
    refine ⟨by decide, by decide, fun u' v' hcut hlt => ?_⟩
    have hnone : ∀ n < 9, introduction? ((t.mask .literals).take n).getLast?
        ((t.mask .literals).drop n) = none := by
      decide
    have hat := hnone u'.length hlt
    rwa [hcut, List.take_left, List.drop_left] at hat
  have hover : ∀ other ∈ cteHeads (t.mask .literals), ¬GoesOver u v other := by
    rintro other - ⟨u₁, u₂, n, hcut, hat, hlt, hstart⟩
    have hnone : ∀ n < 9, cteAt? (u.take n).getLast? (u.drop n ++ v) = none := by decide
    by_cases hbefore : u₁.length < 9
    · have hnowhere := hnone u₁.length hbefore
      rw [hcut, List.take_left, List.drop_left, hat] at hnowhere
      contradiction
    · have hlength : 9 = u₁.length + u₂.length := by
        rw [← List.length_append, ← hcut]
        rfl
      obtain rfl : u₂ = [] := List.eq_nil_of_length_eq_zero (by omega)
      rw [List.append_nil] at hcut
      rcases hstart with hcomma | ⟨rest, hrest, hblank⟩
      · contradiction
      · rw [← hcut] at hrest
        obtain rfl := Option.some.inj hrest
        contradiction
  refine ⟨hcte, hname, ⟨u, v, hhere, hover⟩, ?_⟩
  obtain ⟨u', v', name, hfirst, hbound, -⟩ := ctes_of_hasCte hcte
  obtain ⟨rfl, rfl, rfl⟩ := hfirst.unique hhere
  rcases hbound hname with ⟨head, hhead, -, hlookup⟩ | ⟨other, hother, hgoes⟩
  · have hbindings : ∀ head ∈ cteHeads (t.mask .literals),
        head.binding = .ofCte "a b".toList ["x".toList] none := by
      decide
    rw [hbindings head hhead] at hlookup
    exact hlookup
  · exact absurd hgoes (hover other hother)

/-- The text is worth reading for a name in backticks, which the search does not find. -/
theorem ctes_lost_in_backticks : ∃ t : Text,
    t = "WITH `c` AS (SELECT 1 AS a) SELECT * FROM".toList ∧ t.hasCte = true ∧
      FirstIntroduction (t.mask .literals) [] (t.mask .literals) "`c`".toList ∧ ofText t = {} := by
  refine ⟨_, rfl, by decide, ?_, by decide⟩
  refine ⟨rfl, by decide, fun u' v' _ hlt => ?_⟩
  exact absurd hlt (Nat.not_lt_zero _)

end References

end SqlInsight
