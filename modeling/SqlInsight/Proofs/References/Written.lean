/-
The names in the references of a text that cannot be read are written in it: each is a stretch of
the masked text, without the blanks and the delimiters around it.
-/
import SqlInsight.Proofs.References.Names

namespace SqlInsight.References

open Text (IsIdentifier IsDotted)
open Outline (TableName)

/-- A character that is kept and stands outside delimiters: no delimiter, no dot and no blank. -/
structure IsOrdinary (c : Char) : Prop where
  bracket : c ≠ '['
  quote : c ≠ '"'
  dot : c ≠ '.'
  blank : CharClass.isBlank c = false

def blankCodes : List Nat :=
  [0x9, 0xa, 0xb, 0xc, 0xd, 0x20, 0x85, 0xa0, 0x1680, 0x2000, 0x2001, 0x2002, 0x2003, 0x2004,
    0x2005, 0x2006, 0x2007, 0x2008, 0x2009, 0x200a, 0x2028, 0x2029, 0x202f, 0x205f, 0x3000]

theorem mem_blankCodes {c : Char} (h : CharClass.isBlank c = true) : c.toNat ∈ blankCodes := by
  simp only [CharClass.isBlank, Bool.or_eq_true, Bool.and_eq_true, beq_iff_eq,
    decide_eq_true_eq] at h
  simp only [blankCodes, List.mem_cons]
  omega

theorem isOrdinary_of_codes {p : Char → Bool}
    (h : ∀ n ∈ 0x22 :: 0x2e :: 0x5b :: blankCodes, p (Char.ofNat n) = false) {c : Char}
    (hc : p c = true) : IsOrdinary c := by
  have hnot : ∀ n ∈ 0x22 :: 0x2e :: 0x5b :: blankCodes, c.toNat ≠ n := by
    rintro n hn rfl
    have hcode := h _ hn
    rw [Char.ofNat_toNat, hc] at hcode
    contradiction
  refine ⟨?_, ?_, ?_, ?_⟩
  · rintro rfl
    exact hnot 0x5b (by decide) rfl
  · rintro rfl
    exact hnot 0x22 (by decide) rfl
  · rintro rfl
    exact hnot 0x2e (by decide) rfl
  · by_contra hblank
    have hmem := mem_blankCodes (by simpa using hblank)
    refine hnot c.toNat ?_ rfl
    exact List.mem_cons_of_mem _ (List.mem_cons_of_mem _ (List.mem_cons_of_mem _ hmem))

theorem isOrdinary_of_beginsIdentifier {c : Char} (h : Text.beginsIdentifier c = true) :
    IsOrdinary c :=
  isOrdinary_of_codes (by decide +kernel) h

theorem isOrdinary_of_continuesIdentifier {c : Char} (h : Text.continuesIdentifier c = true) :
    IsOrdinary c :=
  isOrdinary_of_codes (by decide +kernel) h

theorem splitFrom_ordinary {c : Char} (h : IsOrdinary c) (part rest : Text) :
    splitFrom none part (c :: rest) = splitFrom none (c :: part) rest := by
  rw [splitFrom]
  simp [h.bracket, h.quote, h.dot, h.blank]

theorem splitFrom_run {run : Text} (h : ∀ c ∈ run, IsOrdinary c) (part rest : Text) :
    splitFrom none part (run ++ rest) = splitFrom none (run.reverse ++ part) rest := by
  induction run generalizing part with
  | nil => rfl
  | cons c more ih =>
      rw [List.cons_append, splitFrom_ordinary (h c List.mem_cons_self),
        ih fun d hd => h d (List.mem_cons_of_mem c hd)]
      simp

theorem splitFrom_blanks {blanks : Text} (h : ∀ c ∈ blanks, CharClass.isBlank c = true)
    (part rest : Text) : splitFrom none part (blanks ++ rest) = splitFrom none part rest := by
  induction blanks with
  | nil => rfl
  | cons c more ih =>
      have hc := h c List.mem_cons_self
      have hne {d : Char} (hd : CharClass.isBlank d = false) : c ≠ d := by
        rintro rfl
        rw [hc] at hd
        contradiction
      rw [List.cons_append, splitFrom]
      simp only [if_neg (hne (d := '[') (by decide)), if_neg (hne (d := '"') (by decide)),
        if_neg (hne (d := '.') (by decide)), if_pos hc]
      exact ih fun d hd => h d (List.mem_cons_of_mem c hd)

theorem splitFrom_dot (part rest : Text) :
    splitFrom none part ('.' :: rest) = Name.unquote part.reverse :: splitFrom none [] rest := by
  rw [splitFrom]
  simp

theorem splitFrom_inside {close : Char} {inner : Text} (h : close ∉ inner) (part rest : Text) :
    splitFrom (some close) part (inner ++ close :: rest) =
      splitFrom none (close :: (inner.reverse ++ part)) rest := by
  induction inner generalizing part with
  | nil => simp [splitFrom]
  | cons c more ih =>
      have hc : c ≠ close := fun heq => h (heq ▸ List.mem_cons_self)
      rw [List.cons_append, splitFrom]
      simp only [if_neg hc]
      rw [ih fun hmem => h (List.mem_cons_of_mem c hmem)]
      simp

/-- A text between delimiters goes into one part. -/
theorem splitFrom_delimited {opening closing : Char} {inner : Text}
    (hopening : ∀ part rest, splitFrom none part (opening :: rest) =
      splitFrom (some closing) (opening :: part) rest) (h : closing ∉ inner) (part rest : Text) :
    splitFrom none part (opening :: inner ++ [closing] ++ rest) =
      splitFrom none ((opening :: inner ++ [closing]).reverse ++ part) rest := by
  have hinside := splitFrom_inside h (opening :: part) rest
  simp only [List.cons_append, List.append_assoc, List.nil_append, hopening]
  rw [hinside]
  simp

/-- An identifier is a part of its own, or the end of one. -/
theorem splitFrom_identifier {name : Text} (h : IsIdentifier name) (part rest : Text) :
    splitFrom none part (name ++ rest) = splitFrom none (name.reverse ++ part) rest := by
  cases h with
  | @bare c more hfirst hmore =>
      apply splitFrom_run
      intro d hd
      rcases List.mem_cons.mp hd with rfl | hd
      · exact isOrdinary_of_beginsIdentifier hfirst
      · exact isOrdinary_of_continuesIdentifier (hmore d hd)
  | bracketed hclosing =>
      apply splitFrom_delimited _ hclosing
      intro part rest
      simp [splitFrom]
  | quoted hclosing =>
      apply splitFrom_delimited _ hclosing
      intro part rest
      simp [splitFrom]

theorem splitFrom_dotted {t : Text} {names : List Text} (h : IsDotted t names) (part : Text) :
    splitFrom none part t = Name.unquote part.reverse :: names.map Name.unquote := by
  induction h generalizing part with
  | nil => rfl
  | @cons before after name t names hbefore hafter hname _ ih =>
      rw [splitFrom_blanks hbefore, splitFrom_dot, splitFrom_blanks hafter,
        splitFrom_identifier hname, ih]
      simp

/-- The parts of a dotted name are its identifiers. -/
theorem splitQualified_append {first more : Text} {names : List Text} (hfirst : IsIdentifier first)
    (hmore : IsDotted more names) :
    splitQualified (first ++ more) = (first :: names).map Name.unquote := by
  rw [splitQualified, splitFrom_identifier hfirst, splitFrom_dotted hmore]
  simp

theorem isInfix_of_mem_dotted {t name : Text} {names : List Text} (h : IsDotted t names)
    (hname : name ∈ names) : name <:+: t := by
  induction h with
  | nil => contradiction
  | @cons before after first t names _ _ _ _ ih =>
      have hsuffix : first ++ t <:+ before ++ '.' :: (after ++ (first ++ t)) :=
        ⟨before ++ '.' :: after, by simp⟩
      rcases List.mem_cons.mp hname with rfl | hmem
      · exact (List.prefix_append name t).isInfix.trans hsuffix.isInfix
      · exact (ih hmem).trans ((List.suffix_append first t).trans hsuffix).isInfix

/-- A name that is written in a text, without blanks and delimiters around it. -/
def Written (t name : Text) : Prop :=
  ∃ w, w <:+: t ∧ Name.unquote w = name

theorem Written.of_isInfix {t t' name : Text} (h : Written t name) (ht : t <:+: t') :
    Written t' name := by
  obtain ⟨w, hw, hname⟩ := h
  exact ⟨w, hw.trans ht, hname⟩

theorem written_of_ofParts? {most : Nat} {t dotted after : Text} {table : TableName}
    (hdotted : Text.dottedName? most t = some (dotted, after))
    (htable : TableName.ofParts? (splitQualified dotted) = some table) : Written t table.name := by
  obtain ⟨first, more, names, ht, rfl, hfirst, hmore⟩ := Text.exists_of_dottedName? hdotted
  rw [splitQualified_append hfirst hmore] at htable
  have hmem : table.name ∈ (first :: names).map Name.unquote := by
    unfold TableName.ofParts? at htable
    split at htable
    · contradiction
    · rename_i name rest hreverse
      obtain rfl := Option.some.inj htable
      rw [← List.mem_reverse, hreverse]
      exact List.mem_cons_self
  obtain ⟨part, hpart, hname⟩ := List.mem_map.mp hmem
  refine ⟨part, ?_, hname⟩
  have hprefix : first ++ more <+: t := ⟨after, ht.symm⟩
  rcases List.mem_cons.mp hpart with rfl | hnames
  · exact ((List.prefix_append part more).trans hprefix).isInfix
  · exact ((isInfix_of_mem_dotted hmore hnames).trans
      (List.suffix_append first more).isInfix).trans hprefix.isInfix

theorem isInfix_of_aliasAfter? {t name rest : Text} (h : aliasAfter? t = some (name, rest)) :
    name <:+: t ∧ rest <:+ t := by
  have hfound {u : Text} (hu : u <:+ t) (hname : Text.identifier? u = some (name, rest)) :
      name <:+: t ∧ rest <:+ t := by
    obtain ⟨rfl, -⟩ := Text.eq_append_of_identifier? hname
    exact ⟨(List.prefix_append name rest).isInfix.trans hu.isInfix,
      (List.suffix_append name rest).trans hu⟩
  unfold aliasAfter? at h
  obtain ⟨behind, hbehind, h⟩ := Option.bind_eq_some_iff.mp h
  have hsuffix := Text.afterBlanks?_isSuffix hbehind
  rcases Option.or_eq_some_iff.mp h with hexplicit | ⟨-, himplicit⟩
  · obtain ⟨more, hmore, hexplicit⟩ := Option.bind_eq_some_iff.mp hexplicit
    obtain ⟨word, hword, hname⟩ := Option.bind_eq_some_iff.mp hexplicit
    refine hfound ?_ hname
    exact ((Text.afterBlanks?_isSuffix hword).trans (Text.afterWord?_isSuffix hmore)).trans hsuffix
  · exact hfound hsuffix himplicit

theorem isInfix_intercalate {piece between : Text} {pieces : List Text} (h : piece ∈ pieces) :
    piece <:+: between.intercalate pieces := by
  induction pieces with
  | nil => contradiction
  | cons first rest ih =>
      cases rest with
      | nil =>
          rw [List.mem_singleton.mp h]
          simp
      | cons second more =>
          rw [List.intercalate_cons_cons, List.append_assoc]
          rcases List.mem_cons.mp h with rfl | hrest
          · exact (List.prefix_append piece _).isInfix
          · exact (ih hrest).trans
              ((List.suffix_append between _).trans (List.suffix_append first _)).isInfix

theorem isInfix_of_mem_splitOn {t piece : Text} {c : Char} (h : piece ∈ t.splitOn c) :
    piece <:+: t := by
  have hjoined : piece <:+: [c].intercalate (t.splitOn c) := isInfix_intercalate h
  rwa [List.intercalate_splitOn] at hjoined

theorem written_of_mem_commaNames {t name : Text} (h : name ∈ commaNames t) : Written t name := by
  obtain ⟨hmem, -⟩ := List.mem_filter.mp h
  obtain ⟨piece, hpiece, hname⟩ := List.mem_map.mp hmem
  exact ⟨piece, isInfix_of_mem_splitOn hpiece, hname⟩

theorem isInfix_of_cteAfterName? {name t : Text} {head : CteHead}
    (h : cteAfterName? name t = some head) :
    head.name = name ∧ ∀ columns, head.columns = some columns → columns <:+: t := by
  unfold cteAfterName? at h
  rcases Option.or_eq_some_iff.mp h with hlist | ⟨-, hplain⟩
  · split at hlist
    · rename_i inside hopen
      obtain ⟨rest, -, hlist⟩ := Option.bind_eq_some_iff.mp hlist
      obtain ⟨body, -, rfl⟩ := Option.map_eq_some_iff.mp hlist
      refine ⟨rfl, ?_⟩
      rintro columns hcolumns
      obtain rfl := Option.some.inj hcolumns
      have hinside : inside <:+ t :=
        (List.suffix_cons '(' inside).trans (hopen ▸ Text.trimStart_isSuffix t)
      exact (List.takeWhile_prefix _).isInfix.trans hinside.isInfix
    · contradiction
  · obtain ⟨body, -, rfl⟩ := Option.map_eq_some_iff.mp hplain
    exact ⟨rfl, fun columns hcolumns => by contradiction⟩

/-- A common table expression is found by its name, with its columns and its body behind it; its
length goes up to where the text behind the body begins. -/
theorem exists_cteAfterName?_of_cteAt? {before : Option Char} {s : Text} {head : CteHead} {n : Nat}
    (h : cteAt? before s = some (head, n)) :
    ∃ name after, name ++ after <:+ s ∧ cteAfterName? name after = some head ∧
      n = s.length - head.rest.length := by
  unfold cteAt? at h
  obtain ⟨rest, hrest, h⟩ := Option.bind_eq_some_iff.mp h
  obtain ⟨found, hhead, h⟩ := Option.map_eq_some_iff.mp h
  obtain ⟨rfl, rfl⟩ := Prod.mk.inj h
  obtain ⟨⟨name, after⟩, hname, hcte⟩ := List.exists_of_findSome?_eq_some hhead
  have hstart : rest <:+ s := by
    split at hrest
    · obtain rfl := Option.some.inj hrest
      exact List.suffix_cons _ _
    · exact Text.afterWordStart?_isSuffix hrest
  refine ⟨name, after, ?_, hcte, rfl⟩
  rw [← Text.eq_append_of_mem_identifiers hname]
  exact (Text.trimStart_isSuffix rest).trans hstart

/-- The name and the columns of a common table expression are written where it is found. -/
theorem isInfix_of_mem_cteHeads {t : Text} {head : CteHead} (h : head ∈ cteHeads t) :
    head.name <:+: t ∧ ∀ columns, head.columns = some columns → columns <:+: t := by
  obtain ⟨before, s, length, hs, hfound⟩ := Text.exists_of_mem_matchesFrom h
  obtain ⟨name, after, hcte, hhead, -⟩ := exists_cteAfterName?_of_cteAt? hfound
  obtain ⟨rfl, hcolumns⟩ := isInfix_of_cteAfterName? hhead
  have hsuffix := hcte.trans hs
  refine ⟨(List.prefix_append _ after).isInfix.trans hsuffix.isInfix, fun columns hlist => ?_⟩
  exact (hcolumns columns hlist).trans ((List.suffix_append _ after).trans hsuffix).isInfix

section

variable {P Q : Text → Prop} {s : Text} {r : References}
  (hPQ : ∀ name, Q name → P name) (hP : ∀ name, Written s name → P name)
  (hQ : ∀ name, Written s name → isPlaceholder name = false → Q name)

include hP in
theorem Names.bindHead (h : r.Names P Q) {head : CteHead} (hhead : head ∈ cteHeads s) :
    (r.bindHead head).Names P Q := by
  obtain ⟨hname, hcolumns⟩ := isInfix_of_mem_cteHeads hhead
  have hwritten := hP _ ⟨head.name, hname, rfl⟩
  refine h.bindCte hwritten (Binding.names_ofCte hwritten ?_ fun _ hsource => by contradiction)
  intro column hcolumn
  cases hlist : head.columns with
  | none =>
      rw [hlist] at hcolumn
      contradiction
  | some columns =>
      rw [hlist] at hcolumn
      exact hP _ ((written_of_mem_commaNames hcolumn).of_isInfix (hcolumns columns hlist))

include hPQ hP hQ in
theorem Names.scanTables (h : r.Names P Q) {t : Text} (ht : t <:+: s) (fuel : Nat) :
    (r.scanTables t fuel).Names P Q := by
  induction fuel generalizing r t with
  | zero => exact h
  | succ fuel ih =>
      have hstart := (Text.trimStart_isSuffix t).isInfix.trans ht
      rw [References.scanTables]
      split
      · exact h
      · rename_i name afterName hname
        split
        · exact h
        · rename_i table htable
          split
          · exact h
          · have hwritten := (written_of_ofParts? hname htable).of_isInfix hstart
            have hafter : afterName <:+: s := by
              obtain ⟨_, _, _, hsplit, -⟩ := Text.exists_of_dottedName? hname
              exact (hsplit ▸ List.suffix_append name afterName).isInfix.trans hstart
            generalize halias : (aliasAfter? afterName).filter (fun a => !isStopWord a.1) = alias?
            have hfound : ∀ a, alias? = some a → a.1 <:+: s ∧ a.2 <:+: s := by
              rintro ⟨word, rest⟩ rfl
              obtain ⟨hword, hrest⟩ :=
                isInfix_of_aliasAfter? (Option.filter_eq_some_iff.mp halias).1
              exact ⟨hword.trans hafter, hrest.isInfix.trans hafter⟩
            have hbound : (r.bindTable table (alias?.map fun a => Name.unquote a.1)).Names P Q := by
              refine h.bindTable hPQ fun hname => ⟨hQ _ hwritten hname, fun word hword => ?_⟩
              obtain ⟨a, ha, rfl⟩ := Option.map_eq_some_iff.mp hword
              exact hP _ ⟨a.1, (hfound a ha).1, rfl⟩
            have hrest : (alias?.map Prod.snd).getD afterName <:+: s := by
              cases alias? with
              | none => exact hafter
              | some a => exact (hfound a rfl).2
            simp only
            split
            · rename_i more hmore
              have hsuffix := hmore ▸ Text.trimStart_isSuffix ((alias?.map Prod.snd).getD afterName)
              exact ih hbound (((List.suffix_cons ',' more).trans hsuffix).isInfix.trans hrest)
            · exact hbound

end

/-- What holds of all names written in the code of a text holds of the names in the references of
the text when it cannot be read. -/
theorem names_ofText {P Q : Text → Prop} {t : Text} (hPQ : ∀ name, Q name → P name)
    (hP : ∀ name, Written (t.mask .literals) name → P name)
    (hQ : ∀ name, Written (t.mask .literals) name → isPlaceholder name = false → Q name) :
    (ofText t).Names P Q := by
  have hbound : ((cteHeads (t.mask .literals)).foldl References.bindHead {}).Names P Q := by
    refine List.foldlRecOn _ References.bindHead names_nothing ?_
    intro r hr head hhead
    exact hr.bindHead hP hhead
  refine List.foldlRecOn _ _ hbound ?_
  intro r h list hlist
  obtain ⟨before, s, length, hs, hfound⟩ := Text.exists_of_mem_matchesFrom hlist
  unfold tableListAt? at hfound
  obtain ⟨rest, hrest, hfound⟩ := Option.bind_eq_some_iff.mp hfound
  split at hfound
  · obtain ⟨rfl, -⟩ := Prod.mk.inj (Option.some.inj hfound)
    have hsuffix : rest <:+ s := by
      rcases Option.or_eq_some_iff.mp hrest with hfrom | ⟨-, hjoin⟩
      · exact Text.afterWordStart?_isSuffix hfrom
      · exact Text.afterWordStart?_isSuffix hjoin
    exact h.scanTables hPQ hP hQ (hsuffix.trans hs).isInfix rest.length
  · contradiction

end SqlInsight.References
