/-
Searches in lockstep. The searches for common table expressions, updates and insertions pass over
quiet names: they find nothing within one. So they find as much in each of two texts that differ in
quiet names only, and behind each of the finds the texts go on in lockstep.
-/
import SqlInsight.Completion.Context
import SqlInsight.Proofs.Completion.Lockstep

namespace SqlInsight

open Text

namespace Completion

section Searches

variable {s t : Text} {before before' : Option Char}

theorem cteAt?_eq (before : Option Char) (t : Text) : References.cteAt? before t =
    (if t.head? = some ',' then some t.tail
      else Text.afterWordStart? "with".toList before t).bind fun rest =>
        ((Text.identifiers (Text.trimStart rest)).findSome? fun found =>
          References.cteAfterName? found.1 found.2).map fun head =>
            (head, t.length - head.rest.length) := by
  unfold References.cteAt?
  cases t with
  | nil => rfl
  | cons c rest =>
      by_cases hc : c = ','
      · subst hc
        rfl
      · simp [hc]

theorem Alike.cteAt? (h : Alike s t)
    (hbefore : before.any CharClass.isWord = before'.any CharClass.isWord) :
    Option.Rel (fun a b => Alike a.1.rest b.1.rest)
      (References.cteAt? before s) (References.cteAt? before' t) := by
  rw [cteAt?_eq, cteAt?_eq]
  have hstart : Option.Rel Alike
      (if s.head? = some ',' then some s.tail
        else Text.afterWordStart? "with".toList before s)
      (if t.head? = some ',' then some t.tail
        else Text.afterWordStart? "with".toList before' t) := by
    rcases h.head_cases (c := ',') (by decide) with ⟨s', t', rfl, rfl, hrest⟩ | ⟨hs, ht⟩
    · exact .some hrest
    · rw [if_neg hs, if_neg ht]
      exact h.afterWordStart? (by decide) hbefore
  refine hstart.bind fun _ _ hrest => ?_
  exact (hrest.trimStart.identifiers.findSome? fun _ _ hname => hname.cteAfterName? _ _).map
    fun _ _ hhead => hhead

theorem updateAt?_eq (before : Option Char) (t : Text) : updateAt? before t =
    (Text.afterWordStart? "update".toList before t).bind fun word =>
      (Text.afterBlanks? word).bind fun named =>
        (Text.dottedName? named.length named).bind fun found =>
          ((afterAlias found.2).findSome? afterSet?).bind fun rest =>
            some (⟨found.1, rest⟩, t.length - rest.length) := rfl

theorem Alike.updateAt? (h : Alike s t)
    (hbefore : before.any CharClass.isWord = before'.any CharClass.isWord) :
    Option.Rel (fun a b => Alike a.1.rest b.1.rest)
      (Completion.updateAt? before s) (Completion.updateAt? before' t) := by
  rw [updateAt?_eq, updateAt?_eq]
  refine (h.afterWordStart? (by decide) hbefore).bind fun _ _ hword => ?_
  refine hword.afterBlanks?.bind fun _ _ hnamed => ?_
  refine hnamed.dottedName?.bind fun _ _ hfound => ?_
  exact hfound.findSome?_afterAlias.bind fun _ _ hrest => .some hrest

theorem insertAt?_eq (before : Option Char) (t : Text) : insertAt? before t =
    (Text.afterWordStart? "insert".toList before t).bind fun word =>
      (Text.afterBlanks? word).bind fun rest =>
        (((Text.afterWord? "into".toList rest).bind Text.afterBlanks?).toList ++ [rest]).findSome?
          fun named => (Text.dottedName? named.length named).bind fun found =>
            (openColumns? found.2).bind fun columns => some ⟨found.1, columns⟩ := rfl

theorem Alike.insertAt? (h : Alike s t)
    (hbefore : before.any CharClass.isWord = before'.any CharClass.isWord) :
    Option.Rel (fun a b => Alike a.rest b.rest)
      (Completion.insertAt? before s) (Completion.insertAt? before' t) := by
  rw [insertAt?_eq, insertAt?_eq]
  refine (h.afterWordStart? (by decide) hbefore).bind fun _ _ hword => ?_
  refine hword.afterBlanks?.bind fun _ _ hrest => ?_
  have hinto := (hrest.afterWord? (w := "into".toList) (by decide)).bind
    fun _ _ hmore => hmore.afterBlanks?
  refine (List.rel_append hinto.toList (.cons hrest .nil)).findSome? fun _ _ hnamed => ?_
  refine hnamed.dottedName?.bind fun _ _ hfound => ?_
  exact hfound.openColumns?.bind fun _ _ hcolumns => .some hcolumns

theorem suffix_of_opened? {t rest : Text} (h : opened? t = some rest) : '(' :: rest <:+ t := by
  unfold opened? at h
  split at h
  · obtain rfl := Option.some.inj h
    exact List.suffix_refl _
  · contradiction

theorem suffix_of_bodyAfter? {t body : Text} (h : References.bodyAfter? t = some body) :
    '(' :: body <:+ t := by
  rw [bodyAfter?_eq, Option.bind_eq_some_iff] at h
  obtain ⟨rest, hrest, hbody⟩ := h
  exact ((suffix_of_opened? hbody).trans (trimStart_isSuffix rest)).trans
    ((afterWord?_isSuffix hrest).trans (trimStart_isSuffix t))

theorem suffix_of_cteAfterName? {name t : Text} {head : References.CteHead}
    (h : References.cteAfterName? name t = some head) : '(' :: head.rest <:+ t := by
  rw [cteAfterName?_eq, Option.or_eq_some_iff] at h
  rcases h with h | ⟨-, h⟩
  · obtain ⟨inside, hinside, h⟩ := Option.bind_eq_some_iff.mp h
    obtain ⟨rest, hrest, h⟩ := Option.bind_eq_some_iff.mp h
    obtain ⟨body, hbody, rfl⟩ := Option.map_eq_some_iff.mp h
    obtain ⟨a, rfl, -⟩ := eq_append_of_afterFirst? hrest
    have hopen := (suffix_of_opened? hinside).trans (trimStart_isSuffix t)
    exact (suffix_of_bodyAfter? hbody).trans
      (((List.suffix_cons _ _).trans (List.suffix_append a _)).trans
        ((List.suffix_cons _ _).trans hopen))
  · obtain ⟨body, hbody, rfl⟩ := Option.map_eq_some_iff.mp h
    exact suffix_of_bodyAfter? hbody

/-- The length of what is found is counted up to the parenthesis that opens the body. -/
theorem exists_of_cteAt? {t : Text} {head : References.CteHead} {n : Nat}
    (h : References.cteAt? before t = some (head, n)) :
    ∃ u, t = u ++ '(' :: head.rest ∧ n = u.length + 1 := by
  obtain ⟨name, after, hcte, hhead, rfl⟩ := References.exists_cteAfterName?_of_cteAt? h
  obtain ⟨u, rfl⟩ := (suffix_of_cteAfterName? hhead).trans
    ((List.suffix_append name after).trans hcte)
  refine ⟨u, rfl, ?_⟩
  rw [List.length_append, List.length_cons]
  omega

theorem exists_of_afterWord? {word t rest : Text} (hne : word ≠ [])
    (hword : ∀ letter ∈ word, CharClass.isWord letter = true)
    (h : Text.afterWord? word t = some rest) :
    ∃ u c, t = u ++ c :: rest ∧ CharClass.isWord c = true := by
  induction word generalizing t with
  | nil => contradiction
  | cons letter word ih =>
      cases t with
      | nil => simp [Text.afterWord?] at h
      | cons c t =>
          rw [Text.afterWord?] at h
          split at h
          · rename_i hc
            cases word with
            | nil =>
                obtain rfl := Option.some.inj h
                exact ⟨[], c, rfl, isWord_of_isLetter (hword letter List.mem_cons_self) hc⟩
            | cons next word =>
                obtain ⟨u, d, rfl, hd⟩ := ih (List.cons_ne_nil next word)
                  (fun l hl => hword l (List.mem_cons_of_mem letter hl)) h
                exact ⟨c :: u, d, rfl, hd⟩
          · contradiction

theorem isSuffix_of_mem_afterAlias {t u : Text} (h : u ∈ afterAlias t) : u <:+ t := by
  unfold afterAlias at h
  cases hblanks : Text.afterBlanks? t with
  | none =>
      rw [hblanks] at h
      obtain rfl := List.mem_singleton.mp h
      exact List.suffix_refl u
  | some rest =>
      have hrest := afterBlanks?_isSuffix hblanks
      simp only [hblanks, List.mem_append, Option.mem_toList, Option.map_eq_some_iff,
        List.mem_singleton] at h
      rcases h with (⟨found, hfound, rfl⟩ | ⟨found, hfound, rfl⟩) | rfl
      · obtain ⟨more, hmore, hfound⟩ := Option.bind_eq_some_iff.mp hfound
        obtain ⟨named, hnamed, hfound⟩ := Option.bind_eq_some_iff.mp hfound
        exact (identifier?_isSuffix hfound).trans
          ((afterBlanks?_isSuffix hnamed).trans ((afterWord?_isSuffix hmore).trans hrest))
      · exact (identifier?_isSuffix hfound).trans hrest
      · exact List.suffix_refl _

/-- The length of what is found is counted up to the word after which columns are set. -/
theorem exists_of_updateAt? {t : Text} {head : TargetHead} {n : Nat}
    (h : updateAt? before t = some (head, n)) :
    ∃ u c, t = u ++ c :: head.rest ∧ n = u.length + 1 ∧ CharClass.isWord c = true := by
  rw [updateAt?_eq] at h
  obtain ⟨word, hword, h⟩ := Option.bind_eq_some_iff.mp h
  obtain ⟨named, hnamed, h⟩ := Option.bind_eq_some_iff.mp h
  obtain ⟨found, hfound, h⟩ := Option.bind_eq_some_iff.mp h
  obtain ⟨rest, hrest, h⟩ := Option.bind_eq_some_iff.mp h
  obtain ⟨rfl, rfl⟩ := Prod.mk.inj (Option.some.inj h)
  obtain ⟨behind, hbehind, hset⟩ := List.exists_of_findSome?_eq_some hrest
  obtain ⟨hset, -⟩ := Option.filter_eq_some_iff.mp hset
  obtain ⟨blank, hblank, hset⟩ := Option.bind_eq_some_iff.mp hset
  obtain ⟨u, c, hsplit, hc⟩ := exists_of_afterWord? (by decide) (by decide) hset
  replace hfound : Text.dottedName? named.length named = some (found.1, found.2) := hfound
  obtain ⟨-, -, -, htable, -⟩ := exists_of_dottedName? hfound
  have hsuffix : c :: rest <:+ t :=
    (hsplit ▸ List.suffix_append u _ : c :: rest <:+ blank).trans
      ((afterBlanks?_isSuffix hblank).trans ((isSuffix_of_mem_afterAlias hbehind).trans
        ((htable ▸ List.suffix_append _ _).trans
          ((afterBlanks?_isSuffix hnamed).trans (afterWordStart?_isSuffix hword)))))
  obtain ⟨a, rfl⟩ := hsuffix
  refine ⟨a, c, rfl, ?_, hc⟩
  rw [List.length_append, List.length_cons]
  omega

theorem Inside.afterWordStart? (h : Inside t) {word rest : Text}
    (hword : ∀ letter ∈ word, CharClass.isWord letter = true)
    (hrest : Text.afterWordStart? word before t = some rest) : Inside rest := by
  unfold Text.afterWordStart? at hrest
  split at hrest
  · contradiction
  · exact h.afterWord? hword hrest

theorem Inside.dottedName? {x : Text} {c : Char} (hx : Tame x) (hne : x ≠ []) (hc : Closes c)
    (s : Text) {most : Nat} {found : Text × Text}
    (h : Text.dottedName? most (x ++ c :: s) = some found) : Inside found.2 := by
  obtain ⟨first, hfirst, rfl⟩ := Option.map_eq_some_iff.mp h
  exact (inside_identifier? hx hne hc s hfirst).dottedRest _ _

/-- Within a quiet name no update begins. -/
theorem Inside.updateAt? (h : Inside t) (before : Option Char) :
    Completion.updateAt? before t = none := by
  rw [updateAt?_eq]
  simp only [Option.bind_eq_none_iff]
  intro word hword named hnamed found hfound rest hrest
  obtain ⟨x, c, s, rfl, hx, hc, hne⟩ :=
    (h.afterWordStart? (by decide) hword).afterBlanks? hnamed
  obtain ⟨behind, hbehind, hset⟩ := List.exists_of_findSome?_eq_some hrest
  rw [((Inside.dottedName? hx hne hc s hfound).afterAlias behind hbehind).afterSet?] at hset
  contradiction

/-- Within a quiet name no insertion begins. -/
theorem Inside.insertAt? (h : Inside t) (before : Option Char) :
    Completion.insertAt? before t = none := by
  rw [insertAt?_eq]
  simp only [Option.bind_eq_none_iff, List.findSome?_eq_none_iff]
  intro word hword rest hrest named hnamed found hfound columns hcolumns
  have hrest := (h.afterWordStart? (by decide) hword).afterBlanks? hrest
  obtain ⟨x, c, s, rfl, hx, hc, hne⟩ : ∃ (x : Text) (c : Char) (s : Text),
      named = x ++ c :: s ∧ Tame x ∧ Closes c ∧ x ≠ [] := by
    rcases List.mem_append.mp hnamed with hinto | hlast
    · rw [Option.mem_toList, Option.bind_eq_some_iff] at hinto
      obtain ⟨more, hmore, hblanks⟩ := hinto
      obtain ⟨x, c, s, rfl, hx, hc, -⟩ := hrest
      exact ((Inside.intro hx hc s).afterWord? (by decide) hmore).afterBlanks? hblanks
    · rwa [List.mem_singleton.mp hlast]
  rw [(Inside.dottedName? hx hne hc s hfound).openColumns?] at hcolumns
  contradiction

/-- What may be taken for an identifier within a quiet name is a part of it. -/
theorem inside_of_mem_identifiers {x : Text} {c : Char} (hx : Tame x) (hne : x ≠ [])
    (hc : Closes c) (s : Text) {found : Text × Text} (h : found ∈ identifiers (x ++ c :: s)) :
    Inside found.2 := by
  replace h : (found.1, found.2) ∈ identifiers (x ++ c :: s) := h
  obtain ⟨hsplit, hname⟩ := mem_identifiers_iff.mp h
  rcases List.append_eq_append_iff.mp hsplit with ⟨beyond, hbeyond, hrest⟩ | ⟨rest, hrest, hbehind⟩
  · cases beyond with
    | nil =>
        rw [List.nil_append] at hrest
        rw [← hrest]
        exact Inside.of_isSuffix hx (List.nil_suffix) hc s
    | cons d beyond =>
        obtain rfl := (List.cons.inj hrest).1
        obtain ⟨e, x, rfl⟩ := List.exists_cons_of_ne_nil hne
        have he := hx.signs e List.mem_cons_self
        have hidentifier := (isIdentifier_iff.mp hname).1
        rw [hbeyond, List.cons_append] at hidentifier
        generalize hall : e :: (x ++ c :: beyond) = all at hidentifier
        cases hidentifier with
        | bare _ hmore =>
            have hcontinues := hmore c (by rw [← (List.cons.inj hall).2]; simp)
            rw [continuesIdentifier_of_steers hc.steers] at hcontinues
            contradiction
        | bracketed =>
            rw [(List.cons.inj hall).1] at he
            exact absurd he (by decide)
        | quoted =>
            rw [(List.cons.inj hall).1] at he
            exact absurd he (by decide)
  · rw [hbehind]
    exact Inside.of_isSuffix hx ⟨_, hrest.symm⟩ hc s

/-- A search that finds nothing within quiet names. -/
def PassesNames {α : Type} (find : Option Char → Text → Option α) : Prop :=
  ∀ {opening closing : Char} {r : Region} {x : Text}, Delimits opening closing r → Quiet x →
    ∀ u v s, x ++ [closing] = u ++ v → v ≠ [] → find (u.getLast?.or (some opening)) (v ++ s) = none

section Passed

variable {opening closing : Char} {r : Region} {x : Text}

theorem PassesNames.eq_none {α : Type} {find : Option Char → Text → Option α}
    (h : PassesNames find) (delimits : Delimits opening closing r) (hx : Quiet x) (s : Text) :
    ∀ u c v, x ++ [closing] = u ++ c :: v →
      find (u.getLast?.or (some opening)) (c :: v ++ s) = none :=
  fun u c v hsplit => h delimits hx u (c :: v) s hsplit (List.cons_ne_nil c v)

/-- Behind the delimiter that opens a quiet name, the search goes on behind the one that closes
it. -/
theorem PassesNames.firstMatch?_eq {α : Type} {find : Option Char → Text → Option α}
    (h : PassesNames find) (delimits : Delimits opening closing r) (hx : Quiet x) (s : Text) :
    Text.firstMatch? find (some opening) (x ++ closing :: s) =
      Text.firstMatch? find (some closing) s := by
  simpa using firstMatch?_append_of_none s (h.eq_none delimits hx s)

theorem PassesNames.matchesFrom_eq {α : Type} {find : Option Char → Text → Option (α × Nat)}
    (h : PassesNames find) (delimits : Delimits opening closing r) (hx : Quiet x) (s : Text) :
    Text.matchesFrom find (some opening) 0 (x ++ closing :: s) =
      Text.matchesFrom find (some closing) 0 s := by
  simpa using matchesFrom_append_of_none s (h.eq_none delimits hx s)

end Passed

/-- A place within a quiet name and the character that closes it cuts the name. -/
theorem exists_of_append_closing {closing : Char} {x u v : Text}
    (hsplit : x ++ [closing] = u ++ v) (hv : v ≠ []) :
    ∃ front, x = u ++ front ∧ v = front ++ [closing] := by
  rcases List.eq_nil_or_concat v with rfl | ⟨front, d, rfl⟩
  · contradiction
  · rw [List.concat_eq_append, ← List.append_assoc] at hsplit
    obtain ⟨rfl, hd⟩ := List.append_inj' hsplit rfl
    exact ⟨front, rfl, by rw [List.concat_eq_append, (List.cons.inj hd).1]⟩

theorem inside_of_append {closing : Char} {x u v : Text} (hx : Tame x) (hc : Closes closing)
    (hsplit : x ++ [closing] = u ++ v) (hv : v ≠ []) (s : Text) : Inside (v ++ s) := by
  obtain ⟨front, rfl, rfl⟩ := exists_of_append_closing hsplit hv
  rw [List.append_assoc, List.singleton_append]
  exact Inside.of_isSuffix hx (List.suffix_append u front) hc s

theorem passesNames_updateAt? : PassesNames Completion.updateAt? :=
  fun delimits hx _ _ s hsplit hv =>
    (inside_of_append hx.tame (closes_of_delimits delimits) hsplit hv s).updateAt? _

theorem passesNames_insertAt? : PassesNames Completion.insertAt? :=
  fun delimits hx _ _ s hsplit hv =>
    (inside_of_append hx.tame (closes_of_delimits delimits) hsplit hv s).insertAt? _

/-- A quiet name does not end with a comma. -/
theorem Tame.ne_nil_of_comma {y : Text} (h : Tame (',' :: y)) : y ≠ [] := by
  rintro rfl
  exact absurd (h.ends ',' rfl) (by decide)

/-- A quiet name does not end with the word that introduces a common table expression. -/
theorem Quiet.ne_nil_of_with {u front y : Text} (h : Quiet (u ++ front))
    (hbefore : ∀ d ∈ u.getLast?, CharClass.isWord d = false)
    (hy : afterWord? "with".toList front = some y) : y ≠ [] := by
  rintro rfl
  have hword := holdsWord_of_append "WITH" (endsWords_of_not_isWord hbefore) hy rfl
  rw [h.words "WITH" (by decide)] at hword
  contradiction

/-- Within a quiet name no common table expression begins: neither behind a comma, which more of
the name follows, nor behind the word, with which the name does not end. -/
theorem passesNames_cteAt? : PassesNames References.cteAt? := by
  intro opening closing r x delimits hx u v s hsplit hv
  have hc := closes_of_delimits delimits
  obtain ⟨front, rfl, rfl⟩ := exists_of_append_closing hsplit hv
  have hfront : Tame front := hx.tame.of_isSuffix (List.suffix_append u front)
  rw [cteAt?_eq, Option.bind_eq_none_iff, List.append_assoc, List.singleton_append]
  intro rest hrest
  obtain ⟨y, rfl, hy, hne⟩ : ∃ y, rest = y ++ closing :: s ∧ Tame y ∧ y ≠ [] := by
    split at hrest
    · rename_i hcomma
      cases front with
      | nil =>
          rw [List.nil_append, List.head?_cons, Option.some.injEq] at hcomma
          exact absurd hc.steers (by rw [hcomma]; decide)
      | cons d y =>
          obtain rfl : d = ',' := Option.some.inj hcomma
          obtain rfl := Option.some.inj hrest
          exact ⟨y, rfl, hfront.of_isSuffix (List.suffix_cons _ y), hfront.ne_nil_of_comma⟩
    · unfold Text.afterWordStart? at hrest
      split at hrest
      · contradiction
      · rename_i hbefore
        have hstop : ∀ letter ∈ "with".toList, isLetter letter closing = false :=
          fun letter hletter => isLetter_of_steers (by revert letter; decide) hc.steers
        rw [afterWord?_append_stop hstop, Option.map_eq_some_iff] at hrest
        obtain ⟨y, hy, rfl⟩ := hrest
        refine ⟨y, rfl, hfront.of_isSuffix (afterWord?_isSuffix hy), hx.ne_nil_of_with ?_ hy⟩
        intro d hd
        rw [Option.mem_def.mp hd] at hbefore
        simpa using hbefore
  rw [Option.map_eq_none_iff, List.findSome?_eq_none_iff,
    trimStart_append_stop (isBlank_of_steers hc.steers)]
  intro found hfound
  exact (inside_of_mem_identifiers (hy.of_isSuffix (trimStart_isSuffix y))
    (hy.trimStart_ne_nil hne) hc s hfound).cteAfterName? _

/-- A search that passes over quiet names finds something in both of two texts that are alike, or
in neither. -/
theorem Alike.firstMatch? {α : Type} {find : Option Char → Text → Option α} {P : α → α → Prop}
    (hpasses : PassesNames find)
    (hfind : ∀ {before before' : Option Char} {s t : Text}, Alike s t →
      before.any CharClass.isWord = before'.any CharClass.isWord →
      Option.Rel P (find before s) (find before' t))
    (h : Alike s t) (hbefore : before.any CharClass.isWord = before'.any CharClass.isWord) :
    Option.Rel P (Text.firstMatch? find before s) (Text.firstMatch? find before' t) := by
  induction h generalizing before before' with
  | nil => exact hfind .nil hbefore
  | cons c rest ih => exact (hfind (.cons c rest) hbefore).or (ih rfl)
  | name delimits left right rest ih =>
      refine (hfind (.name delimits left right rest) hbefore).or ?_
      rw [hpasses.firstMatch?_eq delimits left.toQuiet,
        hpasses.firstMatch?_eq delimits right.toQuiet]
      exact ih rfl

/-- A repeated search that passes over quiet names goes on in lockstep: behind each of the finds
two texts that are alike are alike again. -/
theorem Alike.matchesFrom {α : Type} {find : Option Char → Text → Option (α × Nat)}
    (rest : α → Text) (last : Bool) (hpasses : PassesNames find)
    (hfind : ∀ {before before' : Option Char} {s t : Text}, Alike s t →
      before.any CharClass.isWord = before'.any CharClass.isWord →
      Option.Rel (fun a b => Alike (rest a.1) (rest b.1)) (find before s) (find before' t))
    (hlength : ∀ {before : Option Char} {t : Text} {x : α} {n : Nat},
      find before t = some (x, n) →
        ∃ u c, t = u ++ c :: rest x ∧ n = u.length + 1 ∧ CharClass.isWord c = last)
    (h : Alike s t) (hbefore : before.any CharClass.isWord = before'.any CharClass.isWord) :
    List.Forall₂ (fun a b => Alike (rest a) (rest b))
      (Text.matchesFrom find before 0 s) (Text.matchesFrom find before' 0 t) := by
  induction hlen : s.length using Nat.strong_induction_on generalizing s t before before' with
  | h l ih =>
      have hrel := hfind h hbefore
      cases hs : find before s with
      | some found =>
          cases ht : find before' t with
          | none => simp [hs, ht] at hrel
          | some found' =>
              rw [hs, ht, Option.rel_some_some] at hrel
              obtain ⟨x, n⟩ := found
              obtain ⟨y, m⟩ := found'
              obtain ⟨u, c, rfl, rfl, hc⟩ := hlength hs
              obtain ⟨v, d, rfl, rfl, hd⟩ := hlength ht
              rw [matchesFrom_append_cons_of_some _ hs, matchesFrom_append_cons_of_some _ ht]
              refine .cons hrel (ih _ ?_ hrel ?_ rfl)
              · rw [← hlen, List.length_append, List.length_cons]
                omega
              · rw [Option.any_some, Option.any_some, hc, hd]
      | none =>
          cases ht : find before' t with
          | some found' => simp [hs, ht] at hrel
          | none =>
              cases h with
              | nil => exact .nil
              | cons c rest' =>
                  rw [Text.matchesFrom, Text.matchesFrom, hs, ht]
                  exact ih _ (hlen ▸ Nat.lt_succ_self _) rest' rfl rfl
              | name delimits left right rest' =>
                  rw [Text.matchesFrom, Text.matchesFrom, hs, ht]
                  simp only
                  rw [hpasses.matchesFrom_eq delimits left.toQuiet,
                    hpasses.matchesFrom_eq delimits right.toQuiet]
                  refine ih _ ?_ rest' rfl rfl
                  rw [← hlen, List.length_cons, List.length_append, List.length_cons]
                  omega

theorem Alike.cteHeads (h : Alike s t) : List.Forall₂ (fun a b => Alike a.rest b.rest)
    (References.cteHeads s) (References.cteHeads t) :=
  h.matchesFrom References.CteHead.rest false passesNames_cteAt?
    (fun hst hbefore => hst.cteAt? hbefore)
    (fun hfound => by
      obtain ⟨u, hu, hn⟩ := exists_of_cteAt? hfound
      exact ⟨u, '(', hu, hn, by decide⟩) rfl

/-- The last update that begins in each of two texts that are alike sets columns in lockstep. -/
theorem Alike.lastUpdate? (h : Alike s t) : Option.Rel (fun a b => Alike a.rest b.rest)
    (Completion.lastUpdate? s) (Completion.lastUpdate? t) := by
  have hmatches : List.Forall₂ (fun a b : TargetHead => Alike a.rest b.rest)
      (Text.allMatches Completion.updateAt? s) (Text.allMatches Completion.updateAt? t) :=
    h.matchesFrom TargetHead.rest true passesNames_updateAt?
      (fun hst hbefore => hst.updateAt? hbefore)
      exists_of_updateAt? rfl
  exact hmatches.getLast?

theorem Alike.firstInsert? (h : Alike s t) : Option.Rel (fun a b => Alike a.rest b.rest)
    (Completion.firstInsert? s) (Completion.firstInsert? t) :=
  h.firstMatch? passesNames_insertAt? (fun hst hbefore => hst.insertAt? hbefore) rfl

theorem Alike.leavesOpen (h : Alike s t) (depth : Nat) :
    Completion.leavesOpen depth s = Completion.leavesOpen depth t := by
  have hcons {c : Char} (hc : c ≠ '(' ∧ c ≠ ')') (depth : Nat) (s : Text) :
      Completion.leavesOpen depth (c :: s) = Completion.leavesOpen depth s := by
    rw [Completion.leavesOpen, if_neg hc.1, if_neg hc.2]
  have hpass {x : Text} (hx : ∀ c ∈ x, steers c = false) (depth : Nat) (s : Text) :
      Completion.leavesOpen depth (x ++ s) = Completion.leavesOpen depth s := by
    induction x with
    | nil => rfl
    | cons c x ih =>
        have hc := hx c List.mem_cons_self
        rw [List.cons_append, hcons _ depth, ih fun d hd => hx d (List.mem_cons_of_mem c hd)]
        constructor <;> rintro rfl <;> exact absurd hc (by decide)
  induction h generalizing depth with
  | nil => rfl
  | cons c _ ih => rw [Completion.leavesOpen, Completion.leavesOpen, ih, ih, ih]
  | name delimits left right _ ih =>
      cases delimits <;>
        rw [hcons (by decide), hcons (by decide), hpass left.signs, hpass right.signs,
          hcons (by decide), hcons (by decide), ih]

theorem Alike.endsInCte (h : Alike s t) : Completion.endsInCte s = Completion.endsInCte t := by
  have hany : ∀ {as bs : List References.CteHead},
      List.Forall₂ (fun a b => Alike a.rest b.rest) as bs →
        as.any (fun head => Completion.leavesOpen 1 head.rest) =
          bs.any fun head => Completion.leavesOpen 1 head.rest := by
    intro as bs hrel
    induction hrel with
    | nil => rfl
    | cons hab _ ih => rw [List.any_cons, List.any_cons, hab.leavesOpen, ih]
  exact hany h.cteHeads

end Searches

end Completion

end SqlInsight
