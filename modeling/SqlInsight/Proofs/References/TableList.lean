/-
Lists of tables as they are written behind `FROM`, and what is found in them when the text cannot be
read: the tables that are listed, in their order, and an alias or a name for each. What is found
besides comes from between the brackets of names.
-/
import SqlInsight.Proofs.References.Introductions
import SqlInsight.Proofs.References.Spelled
import SqlInsight.Proofs.References.Walk

namespace SqlInsight

namespace References

open Text
open Outline (TableName)

/-- A part of the name of a table: a word, or whatever stands in brackets. -/
structure ListedPart where
  name : Text
  inBrackets : Bool
  spelled : if inBrackets then name ≠ [] ∧ ']' ∉ name else isPlainName name = true
  notStop : isStopWord name = false
  notPlaceholder : isPlaceholder name = false

/-- A part of a name behind another one, with the blanks around the dot in front of it. -/
structure DottedPart where
  before : Text
  after : Text
  part : ListedPart
  blankBefore : before.isBlank = true
  blankAfter : after.isBlank = true

/-- What stands in front of an alias: blanks, or the word that introduces it between blanks. -/
inductive LeadsAlias : Text → Prop where
  | blanks {gap : Text} (blank : gap.isBlank = true) (ne : gap ≠ []) : LeadsAlias gap
  | word {gap word more : Text} (blank : gap.isBlank = true) (ne : gap ≠ [])
      (as : word.asciiLower = "as".toList) (blankMore : more.isBlank = true) (neMore : more ≠ []) :
      LeadsAlias (gap ++ word ++ more)

theorem leadsAlias_as : LeadsAlias ([' '] ++ "AS".toList ++ [' ']) :=
  .word (by decide) (by decide) (by decide) (by decide) (by decide)

/-- An alias with what stands in front of it. -/
structure ListedAlias where
  lead : Text
  name : Text
  leads : LeadsAlias lead
  plain : isPlainName name = true
  notStop : isStopWord name = false

/-- A table of a list as it is written, with a name of up to four parts. -/
structure ListedTable where
  before : Text
  first : ListedPart
  more : List DottedPart
  alias? : Option ListedAlias
  behind : Text
  most : more.length ≤ 3
  blankBefore : before.isBlank = true
  blankBehind : behind.isBlank = true

def ListedPart.text (p : ListedPart) : Text :=
  if p.inBrackets then bracket p.name else p.name

def DottedPart.text (p : DottedPart) : Text :=
  p.before ++ '.' :: (p.after ++ p.part.text)

namespace ListedTable

/-- The parts of the name. -/
def parts (i : ListedTable) : List ListedPart :=
  i.first :: i.more.map DottedPart.part

/-- The name as it is written. -/
def dotted (i : ListedTable) : Text :=
  i.first.text ++ i.more.flatMap DottedPart.text

/-- The alias as it is written, with what stands in front of it. -/
def aliasText (i : ListedTable) : Text :=
  (i.alias?.map fun a => a.lead ++ a.name).getD []

def text (i : ListedTable) : Text :=
  i.before ++ (i.dotted ++ (i.aliasText ++ i.behind))

/-- The table that is listed: the last part of the name, in the schema that the part before it
names. -/
def table (i : ListedTable) : TableName :=
  let names := i.parts.map ListedPart.name
  ⟨names.dropLast.getLast?, names.getLast (by simp [names, parts])⟩

/-- The name in lower case under which the table is known. -/
def key (i : ListedTable) : Text :=
  ((i.alias?.map ListedAlias.name).getD i.table.name).lower

def listed (i : ListedTable) : Text × Text :=
  (i.table.schema.getD defaultSchema, i.table.name)

end ListedTable

def listText (items : List ListedTable) : Text :=
  [','].intercalate (items.map ListedTable.text)

/-- The tables of a list bound one after the other. -/
def bindListed (r : References) (i : ListedTable) : References :=
  r.bindTable i.table (i.alias?.map ListedAlias.name)

section Reading

variable {gap rest t : Text}

theorem trimStart_append (hgap : gap.isBlank = true)
    (hrest : ∀ c ∈ rest.head?, CharClass.isBlank c = false) : trimStart (gap ++ rest) = rest := by
  rw [trimStart, List.dropWhile_append_of_pos (List.all_eq_true.mp hgap)]
  cases rest with
  | nil => rfl
  | cons c rest => exact trimStart_cons_of_not_isBlank (hrest c rfl) rest

theorem afterBlanks?_append (hgap : gap.isBlank = true) (hne : gap ≠ [])
    (hrest : ∀ c ∈ rest.head?, CharClass.isBlank c = false) :
    afterBlanks? (gap ++ rest) = some rest := by
  have hhead : (gap ++ rest).head?.any CharClass.isBlank = true := by
    obtain ⟨c, more, rfl⟩ := List.exists_cons_of_ne_nil hne
    exact List.all_eq_true.mp hgap c List.mem_cons_self
  rw [afterBlanks?, if_pos hhead, trimStart_append hgap hrest]

/-- Whether a text begins with something that no part of a name goes on with. -/
def Breaks (t : Text) : Prop :=
  ∀ c ∈ t.head?, CharClass.isBlank c = true ∨ c = '.' ∨ c = ','

theorem Breaks.continuesIdentifier (h : Breaks t) :
    ∀ c ∈ t.head?, continuesIdentifier c = false := by
  intro c hc
  rcases h c hc with hblank | rfl | rfl
  · rw [Bool.eq_false_iff]
    intro hcontinues
    rw [(isOrdinary_of_continuesIdentifier hcontinues).blank] at hblank
    contradiction
  · decide
  · decide

theorem Breaks.isWord (h : Breaks t) : ∀ c ∈ t.head?, CharClass.isWord c = false := by
  intro c hc
  rcases h c hc with hblank | rfl | rfl
  · exact isWord_of_isBlank hblank
  · decide
  · decide

theorem Breaks.ne_bracket (h : Breaks t) : t.head? ≠ some ']' := by
  intro hc
  rcases h ']' hc with hblank | heq | heq
  · exact absurd hblank (by decide)
  · exact absurd heq (by decide)
  · exact absurd heq (by decide)

theorem Breaks.append (hgap : gap.isBlank = true) (h : Breaks rest) : Breaks (gap ++ rest) := by
  cases gap with
  | nil => exact h
  | cons c gap =>
      intro d hd
      obtain rfl := Option.some.inj hd
      exact Or.inl (List.all_eq_true.mp hgap c List.mem_cons_self)

theorem exists_of_isPlainName {name : Text} (h : isPlainName name = true) :
    ∃ c more, name = c :: more ∧ beginsIdentifier c = true ∧ (∀ d ∈ name, isPlain d = true) ∧
      ∀ d ∈ more, Text.continuesIdentifier d = true := by
  simp only [isPlainName, Bool.and_eq_true, List.all_eq_true] at h
  obtain ⟨hhead, hall⟩ := h
  cases name with
  | nil => contradiction
  | cons c more =>
      have hbegins : (c.isDigit || beginsIdentifier c) = true :=
        of_isPlain (f := fun c => c.isDigit || beginsIdentifier c) (by decide)
          (hall c List.mem_cons_self)
      refine ⟨c, more, rfl, ?_, hall, fun d hd => ?_⟩
      · have hdigit : c.isDigit = false := by simpa using hhead
        simpa [hdigit] using hbegins
      · simp [Text.continuesIdentifier,
          isWord_of_isPlain (hall d (List.mem_cons_of_mem c hd))]

theorem identifier?_of_isPlainName {name : Text} (h : isPlainName name = true)
    (hrest : Breaks rest) : identifier? (name ++ rest) = some (name, rest) := by
  obtain ⟨c, more, rfl, hfirst, -, hmore⟩ := exists_of_isPlainName h
  exact identifier?_bare hfirst hmore hrest.continuesIdentifier

/-- A plain name that spells a word in any case. -/
theorem asciiLower_of_afterWord? {key w : Text} (plain : ∀ c ∈ w, isPlain c = true)
    (h : afterWord? key w = some []) : w.asciiLower = key := by
  induction key generalizing w with
  | nil => rw [Option.some.inj h]; rfl
  | cons letter key ih =>
      cases w with
      | nil => simp [afterWord?] at h
      | cons c w =>
          rw [afterWord?] at h
          split at h
          · rename_i hc
            have hascii := toNat_of_isPlain (plain c List.mem_cons_self)
            have hlower : c.toLower = letter := by
              simp only [isLetter, Bool.or_eq_true, Bool.and_eq_true, beq_iff_eq] at hc
              rcases hc with (hc | ⟨-, hc⟩) | ⟨-, hc⟩
              · exact hc
              · omega
              · omega
            have hrest := ih (fun d hd => plain d (List.mem_cons_of_mem c hd)) h
            rw [← hlower, ← hrest]
            rfl
          · contradiction

/-- A word that is none of those that may follow the name of a table is not spelled like one. -/
theorem afterWord?_ne_of_notStop {key w : Text} (plain : ∀ c ∈ w, isPlain c = true)
    (h : isStopWord w = false) (hkey : ∃ stop ∈ stopWords, asciiLower stop.toList = key) :
    afterWord? key w ≠ some [] := by
  intro hafter
  obtain ⟨stop, hstop, rfl⟩ := hkey
  have hlower := asciiLower_of_afterWord? plain hafter
  simp only [isStopWord, List.any_eq_false, sameAscii, beq_iff_eq] at h
  exact h stop hstop hlower

end Reading

namespace ListedPart

variable (p : ListedPart) {rest : Text}

theorem name_ne_nil : p.name ≠ [] := by
  have hspelled := p.spelled
  split at hspelled
  · exact hspelled.1
  · obtain ⟨c, more, hname, -⟩ := exists_of_isPlainName hspelled
    simp [hname]

theorem identifier?_text (hrest : Breaks rest) :
    identifier? (p.text ++ rest) = some (p.text, rest) := by
  have hspelled := p.spelled
  rw [text]
  split at hspelled <;> rename_i hbrackets
  · rw [if_pos hbrackets, bracket, List.append_assoc]
    exact identifier?_bracketed hspelled.1 hspelled.2 rest
  · rw [if_neg hbrackets]
    exact identifier?_of_isPlainName hspelled hrest

theorem isIdentifier_text : IsIdentifier p.text :=
  have hend : Breaks [] := by simp [Breaks]
  (eq_append_of_identifier? (p.identifier?_text hend)).2

theorem head?_text : ∀ c ∈ p.text.head?, CharClass.isBlank c = false := by
  have hspelled := p.spelled
  rw [text]
  split at hspelled <;> rename_i hbrackets
  · rw [if_pos hbrackets]
    intro c hc
    obtain rfl := Option.some.inj hc
    decide
  · rw [if_neg hbrackets]
    obtain ⟨c, more, hname, hfirst, -⟩ := exists_of_isPlainName hspelled
    rw [hname]
    intro d hd
    obtain rfl := Option.some.inj hd
    exact (isOrdinary_of_beginsIdentifier hfirst).blank

theorem text_ne_nil : p.text ≠ [] := by
  rw [text]
  split
  · simp [bracket]
  · exact p.name_ne_nil

theorem unquote_text : Name.unquote p.text = p.name := by
  have hspelled := p.spelled
  rw [text]
  split at hspelled <;> rename_i hbrackets
  · rw [if_pos hbrackets, Name.unquote_bracket hspelled.2]
  · rw [if_neg hbrackets]
    obtain ⟨c, more, -, -, hplain, -⟩ := exists_of_isPlainName hspelled
    exact Name.unquote_of_isName fun d hd => isName_of_isPlain (hplain d hd)

end ListedPart

section Reading

variable {rest : Text}

theorem breaks_flatMap (more : List DottedPart) (hrest : Breaks rest) :
    Breaks (more.flatMap DottedPart.text ++ rest) := by
  cases more with
  | nil => exact hrest
  | cons p more =>
      rw [List.flatMap_cons, DottedPart.text, List.append_assoc, List.append_assoc]
      refine Breaks.append p.blankBefore ?_
      rintro c ⟨⟩
      exact Or.inr (Or.inl rfl)

/-- The parts behind the first are read up to the last. -/
theorem dottedRest_flatMap {more : List DottedPart} {most : Nat} (hmost : more.length ≤ most)
    (hrest : Breaks rest) (hdot : rest.trimStart.head? ≠ some '.') (taken : Nat) :
    dottedRest taken (more.flatMap DottedPart.text ++ rest) most =
      (taken + (more.flatMap DottedPart.text).length, rest) := by
  induction more generalizing most taken with
  | nil =>
      cases most with
      | zero => rfl
      | succ most =>
          rw [List.flatMap_nil, List.nil_append, dottedRest]
          split
          · rename_i heq
            rw [heq] at hdot
            exact absurd rfl hdot
          · rfl
  | cons p more ih =>
      cases most with
      | zero => exact absurd hmost (by simp)
      | succ most =>
          have hmore := breaks_flatMap more hrest
          have hdotted : (p :: more).flatMap DottedPart.text ++ rest =
              p.before ++
                '.' :: (p.after ++ (p.part.text ++ (more.flatMap DottedPart.text ++ rest))) := by
            simp [DottedPart.text]
          have htrim : trimStart ((p :: more).flatMap DottedPart.text ++ rest) =
              '.' :: (p.after ++ (p.part.text ++ (more.flatMap DottedPart.text ++ rest))) := by
            rw [hdotted]
            refine trimStart_append p.blankBefore ?_
            rintro c ⟨⟩
            decide
          have hafter : trimStart
              (p.after ++ (p.part.text ++ (more.flatMap DottedPart.text ++ rest))) =
              p.part.text ++ (more.flatMap DottedPart.text ++ rest) := by
            refine trimStart_append p.blankAfter ?_
            rw [List.head?_append_of_ne_nil _ p.part.text_ne_nil]
            exact p.part.head?_text
          rw [dottedRest, htrim]
          simp only [hafter, p.part.identifier?_text hmore]
          rw [ih (Nat.le_of_succ_le_succ hmost)]
          congr 1
          simp only [List.flatMap_cons, DottedPart.text, List.length_append, List.length_cons]
          omega

theorem isDotted_flatMap (more : List DottedPart) :
    IsDotted (more.flatMap DottedPart.text) (more.map fun p => p.part.text) := by
  induction more with
  | nil => exact .nil
  | cons p more ih =>
      have hdotted := IsDotted.cons (List.all_eq_true.mp p.blankBefore)
        (List.all_eq_true.mp p.blankAfter) p.part.isIdentifier_text ih
      rw [List.flatMap_cons, DottedPart.text, List.map_cons]
      simpa using hdotted

end Reading

namespace ListedTable

variable (i : ListedTable) {rest : Text}

theorem dottedName?_dotted (hrest : Breaks rest) (hdot : rest.trimStart.head? ≠ some '.') :
    dottedName? 3 (i.dotted ++ rest) = some (i.dotted, rest) := by
  rw [dottedName?, dotted, List.append_assoc,
    i.first.identifier?_text (breaks_flatMap i.more hrest)]
  simp only [Option.map_some, dottedRest_flatMap i.most hrest hdot]
  rw [← List.append_assoc, ← List.length_append, List.take_left]

theorem ofParts?_dotted : TableName.ofParts? (splitQualified i.dotted) = some i.table := by
  have hnames : splitQualified i.dotted = i.parts.map ListedPart.name := by
    rw [dotted, splitQualified_append i.first.isIdentifier_text (isDotted_flatMap i.more)]
    simp [parts, ListedPart.unquote_text, Function.comp_def]
  have hparts {names : List Text} (hne : names ≠ []) : TableName.ofParts? names =
      some ⟨names.dropLast.getLast?, names.getLast hne⟩ := by
    obtain ⟨front, last, rfl⟩ : ∃ front last, names = front ++ [last] :=
      ⟨_, _, (List.dropLast_append_getLast hne).symm⟩
    simp [TableName.ofParts?]
  rw [hnames, hparts (by simp [parts])]
  rfl

end ListedTable

section Alias

variable {rest : Text}

theorem head?_of_isPlainName {name : Text} (h : isPlainName name = true) (rest : Text) :
    ∀ c ∈ (name ++ rest).head?, CharClass.isWord c = true := by
  obtain ⟨c, more, rfl, -, hplain, -⟩ := exists_of_isPlainName h
  rintro d ⟨⟩
  exact isWord_of_isPlain (hplain c List.mem_cons_self)

/-- The word in front of an alias is read in any case. -/
theorem afterWord?_as {word : Text} (h : word.asciiLower = "as".toList) (rest : Text) :
    afterWord? "as".toList (word ++ rest) = some rest ∧
      ∀ c ∈ (word ++ rest).head?, CharClass.isWord c = true := by
  have hlength : word.length = 2 := by
    rw [← List.length_map (f := Char.toLower)]
    exact congrArg List.length h
  match word, hlength with
  | [c, d], _ =>
      obtain ⟨hc, hd⟩ : c.toLower = 'a' ∧ d.toLower = 's' := by simpa [asciiLower] using h
      have hletter : isLetter 'a' c = true := by simp [isLetter, hc]
      refine ⟨by simp [afterWord?, isLetter, hc, hd], ?_⟩
      rintro e ⟨⟩
      exact isWord_of_isLetter (by decide) hletter

theorem LeadsAlias.exists_cons {lead : Text} (h : LeadsAlias lead) :
    ∃ c more, lead = c :: more ∧ CharClass.isBlank c = true := by
  have hgap {gap : Text} (blank : gap.isBlank = true) (ne : gap ≠ []) (behind : Text) :
      ∃ c more, gap ++ behind = c :: more ∧ CharClass.isBlank c = true := by
    obtain ⟨c, more, rfl⟩ := List.exists_cons_of_ne_nil ne
    exact ⟨c, more ++ behind, rfl, List.all_eq_true.mp blank c List.mem_cons_self⟩
  cases h with
  | blanks blank ne =>
      rw [← List.append_nil lead]
      exact hgap blank ne []
  | word blank ne =>
      rw [List.append_assoc]
      exact hgap blank ne _

/-- Behind the blanks in front of an alias a word begins. -/
theorem ListedAlias.head?_trimStart (a : ListedAlias) (rest : Text) :
    ∀ c ∈ (trimStart (a.lead ++ (a.name ++ rest))).head?, CharClass.isWord c = true := by
  have hname := head?_of_isPlainName a.plain rest
  obtain ⟨lead, name, leads, plain, notStop⟩ := a
  cases leads with
  | blanks blank ne =>
      rwa [trimStart_append blank fun c hc => isBlank_of_isWord (hname c hc)]
  | @word gap word more blank ne as =>
      obtain ⟨-, hfirst⟩ := afterWord?_as as (more ++ (name ++ rest))
      rwa [List.append_assoc, List.append_assoc,
        trimStart_append blank fun c hc => isBlank_of_isWord (hfirst c hc)]

theorem aliasAfter?_of_afterBlanks? {t rest : Text} (h : afterBlanks? t = some rest) :
    aliasAfter? t = ((afterWord? "as".toList rest).bind fun more =>
      (afterBlanks? more).bind Text.identifier?).or (Text.identifier? rest) := by
  rw [aliasAfter?, h]
  rfl

theorem ListedAlias.aliasAfter? (a : ListedAlias) (hrest : Breaks rest) :
    References.aliasAfter? (a.lead ++ (a.name ++ rest)) = some (a.name, rest) := by
  have hname := identifier?_of_isPlainName a.plain hrest
  have hhead : ∀ c ∈ (a.name ++ rest).head?, CharClass.isBlank c = false :=
    fun c hc => isBlank_of_isWord (head?_of_isPlainName a.plain rest c hc)
  obtain ⟨lead, name, leads, plain, notStop⟩ := a
  cases leads with
  | blanks blank ne =>
      have hexplicit (more : Text) (hmore : afterWord? "as".toList (name ++ rest) = some more) :
          afterBlanks? more = none := by
        rw [afterBlanks?, if_neg]
        intro hblank
        have hends : endsWord more = true := by
          cases more with
          | nil => contradiction
          | cons d more =>
              have hd : CharClass.isBlank d = true := hblank
              simp [endsWord, isWord_of_isBlank hd]
        obtain ⟨-, -, -, -, hplain, -⟩ := exists_of_isPlainName plain
        exact afterWord?_ne_of_notStop hplain notStop ⟨"AS", by decide, by decide⟩
          (afterWord?_word_append (by decide) hplain hrest.isWord hmore hends)
      rw [aliasAfter?_of_afterBlanks? (afterBlanks?_append blank ne hhead)]
      cases hword : afterWord? "as".toList (name ++ rest) with
      | none => exact hname
      | some more =>
          rw [Option.bind_some, hexplicit more hword]
          exact hname
  | @word gap word more blank ne as blankMore neMore =>
      obtain ⟨hword, hfirst⟩ := afterWord?_as as (more ++ (name ++ rest))
      have hblank := fun c hc => isBlank_of_isWord (hfirst c hc)
      rw [List.append_assoc, List.append_assoc,
        aliasAfter?_of_afterBlanks? (afterBlanks?_append blank ne hblank), hword, Option.bind_some,
        afterBlanks?_append blankMore neMore hhead, Option.bind_some, hname]
      rfl

end Alias

/-- What may follow a table of a list: nothing, or the next one. -/
def EndsItem (t : Text) : Prop :=
  t = [] ∨ ∃ more, t = ',' :: more

theorem EndsItem.breaks {t : Text} (h : EndsItem t) : Breaks t := by
  rcases h with rfl | ⟨more, rfl⟩
  · simp [Breaks]
  · rintro c ⟨⟩
    exact Or.inr (Or.inr rfl)

theorem EndsItem.trimStart {gap t : Text} (hgap : gap.isBlank = true) (h : EndsItem t) :
    Text.trimStart (gap ++ t) = t := by
  refine trimStart_append hgap ?_
  rcases h with rfl | ⟨more, rfl⟩
  · simp
  · rintro c ⟨⟩
    decide

namespace ListedTable

variable (i : ListedTable) {rest : Text}

theorem exists_part : ∃ p ∈ i.parts, p.name = i.table.name :=
  List.mem_map.mp (List.getLast_mem _)

theorem breaks_aliasText (hrest : Breaks rest) : Breaks (i.aliasText ++ rest) := by
  rw [aliasText]
  cases i.alias? with
  | none => exact hrest
  | some a =>
      obtain ⟨c, more, hlead, hc⟩ := a.leads.exists_cons
      rw [Option.map_some, Option.getD_some, hlead]
      rintro d ⟨⟩
      exact Or.inl hc

theorem head?_aliasText (hrest : EndsItem rest) :
    (i.aliasText ++ (i.behind ++ rest)).trimStart.head? ≠ some '.' := by
  rw [aliasText]
  cases i.alias? with
  | none =>
      rw [Option.map_none, Option.getD_none, List.nil_append, hrest.trimStart i.blankBehind]
      rcases hrest with rfl | ⟨more, rfl⟩ <;> simp
  | some a =>
      intro hdot
      rw [Option.map_some, Option.getD_some, List.append_assoc] at hdot
      exact absurd (a.head?_trimStart _ '.' hdot) (by decide)

/-- Behind the name of a table its alias is read, if there is one. -/
theorem aliasAfter?_aliasText (hrest : EndsItem rest) :
    (aliasAfter? (i.aliasText ++ (i.behind ++ rest))).filter (fun a => !isStopWord a.1) =
      i.alias?.map fun a => (a.name, i.behind ++ rest) := by
  have hbreaks := Breaks.append i.blankBehind hrest.breaks
  rw [aliasText]
  cases i.alias? with
  | none =>
      have hnone : aliasAfter? (i.behind ++ rest) = none := by
        cases hblanks : afterBlanks? (i.behind ++ rest) with
        | none =>
            rw [aliasAfter?, hblanks]
            rfl
        | some after =>
            have htrim : after = rest := by
              rw [afterBlanks?, hrest.trimStart i.blankBehind] at hblanks
              split at hblanks
              · exact (Option.some.inj hblanks).symm
              · contradiction
            rw [aliasAfter?_of_afterBlanks? hblanks, htrim]
            rcases hrest with rfl | ⟨more, rfl⟩ <;> rfl
      exact congrArg (Option.filter _) hnone
  | some a =>
      rw [Option.map_some, Option.getD_some, List.append_assoc, a.aliasAfter? hbreaks]
      simp [a.notStop]

/-- One table of a list is bound, and the next ones after a comma. -/
theorem scanTables_text (r : References) (fuel : Nat) (hrest : EndsItem rest) :
    r.scanTables (i.text ++ rest) (fuel + 1) =
      if rest = [] then bindListed r i else (bindListed r i).scanTables rest.tail fuel := by
  have hbreaks : Breaks (i.aliasText ++ (i.behind ++ rest)) :=
    i.breaks_aliasText (Breaks.append i.blankBehind hrest.breaks)
  have htrim : trimStart (i.text ++ rest) = i.dotted ++ (i.aliasText ++ (i.behind ++ rest)) := by
    rw [text, List.append_assoc, List.append_assoc, List.append_assoc]
    refine trimStart_append i.blankBefore ?_
    rw [dotted, List.append_assoc, List.head?_append_of_ne_nil _ i.first.text_ne_nil]
    exact i.first.head?_text
  have hstop : isStopWord i.table.name = false := by
    obtain ⟨p, -, hp⟩ := i.exists_part
    rw [← hp]
    exact p.notStop
  rw [scanTables, htrim, i.dottedName?_dotted hbreaks (i.head?_aliasText hrest)]
  simp only [i.ofParts?_dotted, hstop, Bool.false_eq_true, if_false,
    i.aliasAfter?_aliasText hrest, Option.map_map]
  have hbind : r.bindTable i.table ((i.alias?.map fun a => Name.unquote a.name)) =
      bindListed r i := by
    rw [bindListed]
    cases i.alias? with
    | none => rfl
    | some a =>
        obtain ⟨-, -, -, -, hplain, -⟩ := exists_of_isPlainName a.plain
        rw [Option.map_some, Option.map_some,
          Name.unquote_of_isName fun c hc => isName_of_isPlain (hplain c hc)]
  have hbehind : trimStart ((i.alias?.map fun _ => i.behind ++ rest).getD
      (i.aliasText ++ (i.behind ++ rest))) = rest := by
    rw [aliasText]
    cases i.alias? <;> exact hrest.trimStart i.blankBehind
  simp only [Function.comp_def, hbind, hbehind]
  rcases hrest with rfl | ⟨more, rfl⟩
  · rfl
  · rfl

end ListedTable

theorem listText_cons_cons (i next : ListedTable) (items : List ListedTable) :
    listText (i :: next :: items) = i.text ++ ',' :: listText (next :: items) := by
  simp [listText, List.intercalate_cons_cons]

/-- The tables of a list are bound one after the other. -/
theorem scanTables_listText (items : List ListedTable) (r : References) {fuel : Nat}
    (hfuel : items.length ≤ fuel) :
    r.scanTables (listText items) fuel = items.foldl bindListed r := by
  induction items generalizing r fuel with
  | nil => cases fuel <;> rfl
  | cons i items ih =>
      obtain ⟨fuel, rfl⟩ := Nat.exists_eq_add_of_lt (Nat.lt_of_lt_of_le (Nat.succ_pos _) hfuel)
      rw [Nat.zero_add]
      cases items with
      | nil =>
          have hend : EndsItem [] := Or.inl rfl
          have hlast := i.scanTables_text r fuel hend
          rw [List.append_nil, if_pos rfl] at hlast
          simpa [listText] using hlast
      | cons next items =>
          have hend : EndsItem (',' :: listText (next :: items)) := Or.inr ⟨_, rfl⟩
          have hnext := i.scanTables_text r fuel hend
          rw [if_neg (List.cons_ne_nil _ _), List.tail_cons,
            ih _ (by simp at hfuel ⊢; omega)] at hnext
          rw [listText_cons_cons, hnext]
          rfl

/-- A list has a character for each of its tables. -/
theorem length_le_listText (items : List ListedTable) : items.length ≤ (listText items).length := by
  have hitem (i : ListedTable) : 1 ≤ i.text.length := by
    have hfirst := List.length_pos_of_ne_nil i.first.text_ne_nil
    simp only [ListedTable.text, ListedTable.dotted, List.length_append]
    omega
  induction items with
  | nil => exact Nat.zero_le _
  | cons i items ih =>
      cases items with
      | nil => simpa [listText] using hitem i
      | cons next items =>
          have hi := hitem i
          rw [listText_cons_cons]
          simp only [List.length_append, List.length_cons] at ih ⊢
          omega

section Bound

variable (items : List ListedTable)

theorem bindListed_of_no_ctes {r : References} (hr : r.ctes = []) (i : ListedTable) :
    bindListed r i =
      ⟨Keyed.put i.key (Binding.ofTable i.table) r.aliases, r.tables ++ [i.listed], []⟩ := by
  obtain ⟨p, -, hp⟩ := i.exists_part
  have hplaceholder : isPlaceholder i.table.name = false := hp ▸ p.notPlaceholder
  have hcte : r.cteOf? i.table = none := by
    rw [cteOf?, hr]
    split <;> rfl
  rw [bindListed, bindTable_of_table hplaceholder hcte, hr]
  rfl

/-- What a list binds: each table in its place, and under each name the last table known by it. -/
theorem foldl_bindListed :
    (items.foldl bindListed {}).ctes = [] ∧
      (items.foldl bindListed {}).tables = items.map ListedTable.listed ∧
      ∀ key, (items.foldl bindListed {}).aliases.lookup key =
        (items.reverse.find? (·.key == key)).map fun i => Binding.ofTable i.table := by
  induction items using List.reverseRecOn with
  | nil => exact ⟨rfl, rfl, fun _ => rfl⟩
  | append_singleton items last ih =>
      obtain ⟨hctes, htables, haliases⟩ := ih
      rw [List.foldl_append, List.foldl_cons, List.foldl_nil, bindListed_of_no_ctes hctes]
      refine ⟨rfl, by simp [htables], fun key => ?_⟩
      rw [Keyed.lookup_put, haliases, List.reverse_append, List.reverse_singleton,
        List.singleton_append, List.find?_cons]
      by_cases hkey : key = last.key
      · simp [hkey]
      · simp [hkey, beq_false_of_ne (Ne.symm hkey)]

end Bound

/-- A common table expression is found where its columns and its body follow a name. -/
theorem exists_of_cteAt? {before : Option Char} {s : Text} {found : CteHead × Nat}
    (h : cteAt? before s = some found) : ∃ after, after <:+ s ∧ followsName after = true := by
  obtain ⟨name, after, hsuffix, hcte, -⟩ := exists_cteAfterName?_of_cteAt? h
  refine ⟨after, (List.suffix_append name after).trans hsuffix, ?_⟩
  rw [followsName_eq name, hcte]
  rfl

theorem holdsBody_of_followsName {t : Text} (h : followsName t = true) : holdsBody t = true := by
  rw [followsName, Bool.or_eq_true] at h
  rcases h with hbody | hcolumns
  · exact holdsBody_of_isSuffix (List.suffix_refl t) hbody
  · split at hcolumns
    · rename_i inside hopen
      obtain ⟨rest, hrest, hbody⟩ := Option.any_eq_true _ _ |>.mp hcolumns
      obtain ⟨columns, rfl, -⟩ := eq_append_of_afterFirst? hrest
      have hsuffix : rest <:+ t.trimStart := ⟨'(' :: columns ++ [')'], by simp [hopen]⟩
      exact holdsBody_of_isSuffix (hsuffix.trans (trimStart_isSuffix t)) hbody
    · contradiction

theorem holdsBody_mono {w t : Text} (hw : w <:+ t) (h : holdsBody w = true) :
    holdsBody t = true := by
  obtain ⟨u, rfl⟩ := hw
  induction u with
  | nil => exact h
  | cons c u ih =>
      rw [List.cons_append, holdsBody, ih, Bool.or_true]

/-- No common table expression is found where no body begins. -/
theorem cteHeads_eq_nil {t : Text} (h : holdsBody t = false) : cteHeads t = [] := by
  apply matchesFrom_eq_nil_iff.mpr
  intro u c v huv
  rw [Option.eq_none_iff_forall_ne_some]
  intro found hfound
  obtain ⟨after, hafter, hfollows⟩ := exists_of_cteAt? hfound
  have hplace : c :: v <:+ t := ⟨u, huv.symm⟩
  rw [holdsBody_mono (hafter.trans hplace) (holdsBody_of_followsName hfollows)] at h
  contradiction

theorem tables_isPrefix_bindTable (r : References) (name : TableName) (alias? : Option Text) :
    r.tables <+: (r.bindTable name alias?).tables := by
  have hvisit := tables_visit r (.relation (.table name alias?))
  exact ⟨_, hvisit.symm⟩

/-- Scanning another list of tables only adds tables. -/
theorem tables_isPrefix_scanTables (r : References) (t : Text) (fuel : Nat) :
    r.tables <+: (r.scanTables t fuel).tables := by
  induction fuel generalizing r t with
  | zero => exact List.prefix_refl _
  | succ fuel ih =>
      rw [scanTables]
      split
      · exact List.prefix_refl _
      · split
        · exact List.prefix_refl _
        · split
          · exact List.prefix_refl _
          · dsimp only
            split
            · exact (tables_isPrefix_bindTable r _ _).trans (ih _ _)
            · exact tables_isPrefix_bindTable r _ _

theorem tables_isPrefix_foldl (lists : List Text) (r : References) :
    r.tables <+: (lists.foldl (fun r list => r.scanTables list list.length) r).tables := by
  induction lists generalizing r with
  | nil => exact List.prefix_refl _
  | cons list rest ih => exact (tables_isPrefix_scanTables r list _).trans (ih _)

section Spelled

variable {P : Text → Prop} {rest : Text}

/-- Whether a word is none of those that introduce tables. -/
def IntroducesNone (w : Text) : Prop :=
  ∀ key ∈ tableKeys, afterWord? key w ≠ some []

theorem introducesNone_of_notStop {w : Text} (plain : ∀ c ∈ w, isPlain c = true)
    (h : isStopWord w = false) : IntroducesNone w := by
  intro key hkey
  have hstop : ∀ key ∈ tableKeys, ∃ stop ∈ stopWords, asciiLower stop.toList = key := by decide
  exact afterWord?_ne_of_notStop plain h (hstop key hkey)

theorem Spelled.blanks {gap : Text} (hgap : gap.isBlank = true)
    (h : Spelled IntroducesNone P rest) : Spelled IntroducesNone P (gap ++ rest) := by
  induction gap with
  | nil => exact h
  | cons c gap ih =>
      rw [isBlank, List.all_cons, Bool.and_eq_true] at hgap
      exact .sign (isSign_of_isBlank hgap.1) (ih hgap.2)

theorem ListedPart.spelled_text (p : ListedPart) (hP : p.inBrackets = true → P p.name)
    (hrest : Breaks rest) (h : Spelled IntroducesNone P rest) :
    Spelled IntroducesNone P (p.text ++ rest) := by
  have hspelled := p.spelled
  rw [text]
  split at hspelled <;> rename_i hbrackets
  · rw [if_pos hbrackets, bracket, List.append_assoc]
    exact .name hspelled.2 (hP hbrackets) hrest.ne_bracket h
  · rw [if_neg hbrackets]
    obtain ⟨-, -, -, -, hplain, -⟩ := exists_of_isPlainName hspelled
    exact .word hplain (introducesNone_of_notStop hplain p.notStop) hrest.isWord h

theorem spelled_flatMap {more : List DottedPart}
    (hP : ∀ p ∈ more, p.part.inBrackets = true → P p.part.name)
    (hrest : Breaks rest) (h : Spelled IntroducesNone P rest) :
    Spelled IntroducesNone P (more.flatMap DottedPart.text ++ rest) := by
  induction more with
  | nil => exact h
  | cons p more ih =>
      have hmore := ih fun q hq => hP q (List.mem_cons_of_mem p hq)
      have hpart := p.part.spelled_text (hP p List.mem_cons_self) (breaks_flatMap more hrest) hmore
      rw [List.flatMap_cons, DottedPart.text, List.append_assoc, List.append_assoc,
        List.cons_append, List.append_assoc]
      exact .blanks p.blankBefore (.sign (by decide) (.blanks p.blankAfter hpart))

theorem ListedAlias.spelled (a : ListedAlias) (hrest : Breaks rest)
    (h : Spelled IntroducesNone P rest) :
    Spelled IntroducesNone P (a.lead ++ a.name ++ rest) := by
  obtain ⟨lead, name, leads, plain, notStop⟩ := a
  obtain ⟨-, -, -, -, hplain, -⟩ := exists_of_isPlainName plain
  have hname : Spelled IntroducesNone P (name ++ rest) :=
    .word hplain (introducesNone_of_notStop hplain notStop) hrest.isWord h
  rw [List.append_assoc]
  cases leads with
  | blanks blank ne => exact .blanks blank hname
  | @word gap word more blank ne as blankMore neMore =>
      have hword : ∀ c ∈ word, isPlain c = true := by
        intro c hc
        have hfold : isPlain c.toLower = isPlain c := CaseFold.apply_toLower (by decide) c
        have hmem : c.toLower ∈ "as".toList := as ▸ List.mem_map_of_mem hc
        have hall : ∀ d ∈ "as".toList, isPlain d = true := by decide
        rw [← hfold, hall _ hmem]
      have hnone : IntroducesNone word := by
        intro key hkey hafter
        rw [asciiLower_of_afterWord? hword hafter] at as
        exact absurd hkey (by rw [as]; decide)
      have hends : ∀ c ∈ (more ++ (name ++ rest)).head?, CharClass.isWord c = false := by
        obtain ⟨c, behind, rfl⟩ := List.exists_cons_of_ne_nil neMore
        rintro d ⟨⟩
        exact isWord_of_isBlank (List.all_eq_true.mp blankMore c List.mem_cons_self)
      rw [List.append_assoc, List.append_assoc]
      exact .blanks blank (.word hword hnone hends (.blanks blankMore hname))

theorem ListedTable.spelled_text (i : ListedTable)
    (hP : ∀ p ∈ i.parts, p.inBrackets = true → P p.name) (hrest : EndsItem rest)
    (h : Spelled IntroducesNone P rest) :
    Spelled IntroducesNone P (i.text ++ rest) := by
  have hbehind : Breaks (i.behind ++ rest) := Breaks.append i.blankBehind hrest.breaks
  have halias : Spelled IntroducesNone P (i.aliasText ++ (i.behind ++ rest)) := by
    have hblanks := Spelled.blanks i.blankBehind h
    rw [aliasText]
    cases i.alias? with
    | none => exact hblanks
    | some a => exact a.spelled hbehind hblanks
  have hbreaks := i.breaks_aliasText hbehind
  have hmoreP : ∀ p ∈ i.more, p.part.inBrackets = true → P p.part.name :=
    fun p hp => hP p.part (List.mem_cons_of_mem _ (List.mem_map_of_mem hp))
  have hfirst := i.first.spelled_text (hP i.first List.mem_cons_self)
    (breaks_flatMap i.more hbreaks) (spelled_flatMap hmoreP hbreaks halias)
  rw [text, dotted]
  simpa only [List.append_assoc] using Spelled.blanks i.blankBefore hfirst

theorem spelled_listText {items : List ListedTable}
    (hP : ∀ i ∈ items, ∀ p ∈ i.parts, p.inBrackets = true → P p.name) :
    Spelled IntroducesNone P (listText items) := by
  induction items with
  | nil => exact .nil
  | cons i items ih =>
      have hi := hP i List.mem_cons_self
      cases items with
      | nil =>
          have hlast := i.spelled_text hi (Or.inl rfl) .nil
          simpa [listText] using hlast
      | cons next items =>
          rw [listText_cons_cons]
          exact i.spelled_text hi (Or.inr ⟨_, rfl⟩)
            (.sign (by decide) (ih fun j hj => hP j (List.mem_cons_of_mem i hj)))

end Spelled

/-- A text that asks for everything from a list of tables. -/
def selectListed (items : List ListedTable) : Text :=
  "SELECT * FROM ".toList ++ listText items

/-- The word in front of the list is found, and those that are found in the list. -/
theorem allMatches_selectListed (items : List ListedTable) :
    allMatches tableListAt? (selectListed items) =
      (' ' :: listText items) :: matchesFrom tableListAt? (some 'M') 0 (' ' :: listText items) := by
  rfl

theorem spelled_selectListed {P : Text → Prop} {items : List ListedTable}
    (hP : ∀ i ∈ items, ∀ p ∈ i.parts, p.inBrackets = true → P p.name) :
    Spelled (fun _ => True) P (selectListed items) := by
  have hlist := (spelled_listText hP).mono fun _ _ => trivial
  have hfrom : Spelled (fun _ => True) P ("FROM".toList ++ (' ' :: listText items)) :=
    .word (by decide) trivial (by rintro c ⟨⟩; decide) (.sign (by decide) hlist)
  exact .word (w := "SELECT".toList) (by decide) trivial (by rintro c ⟨⟩; decide)
    (.sign (by decide) (.sign (c := '*') (by decide) (.sign (by decide) hfrom)))

/-- The tables that are listed behind `FROM` are found in their order, whatever names stand in
brackets, as long as none of them holds what opens the body of a common table expression. Nothing
else is found, and each table is known by its alias or else by its name, the last one of a name
going before the others, if none of the names holds a word that introduces tables. -/
theorem tables_of_list (items : List ListedTable)
    (hbodies : ∀ i ∈ items, ∀ p ∈ i.parts, p.inBrackets = true → holdsBody p.name = false) :
    (ofText (selectListed items)).ctes = [] ∧
      items.map ListedTable.listed <+: (ofText (selectListed items)).tables ∧
      ((∀ i ∈ items, ∀ p ∈ i.parts, p.inBrackets = true → holdsTableWord p.name = false) →
        (ofText (selectListed items)).tables = items.map ListedTable.listed ∧
        ∀ key, (ofText (selectListed items)).aliases.lookup key =
          (items.reverse.find? (·.key == key)).map fun i => Binding.ofTable i.table) := by
  have hspelled := spelled_selectListed (P := fun inner => holdsBody inner = false) hbodies
  have hheads := cteHeads_eq_nil (hspelled.holdsBody fun _ h => h)
  have hfirst : scanTables {} (' ' :: listText items) (' ' :: listText items).length =
      items.foldl bindListed {} := by
    rw [List.length_cons]
    exact scanTables_listText items {} (Nat.le_succ_of_le (length_le_listText items))
  have hfound : ofText (selectListed items) =
      (matchesFrom tableListAt? (some 'M') 0 (' ' :: listText items)).foldl
        (fun r list => r.scanTables list list.length) (items.foldl bindListed {}) := by
    rw [ofText]
    simp only [hspelled.mask, hheads, allMatches_selectListed, List.foldl_nil, List.foldl_cons,
      hfirst]
  obtain ⟨hctes, htables, haliases⟩ := foldl_bindListed items
  rw [hfound]
  refine ⟨?_, ?_, fun hwords => ?_⟩
  · rw [ctes_foldl_scanTables, hctes]
  · rw [← htables]
    exact tables_isPrefix_foldl _ _
  · have hlist : Spelled IntroducesNone (fun inner => holdsTableWord inner = false)
        (' ' :: listText items) := .sign (by decide) (spelled_listText hwords)
    rw [hlist.matches (fun _ h => h) (fun _ h => h)]
    exact ⟨htables, haliases⟩

/-- Two tables under one alias, in any case; the second one is the last. -/
theorem tables_of_list_same_alias : ∃ items : List ListedTable,
    selectListed items = "SELECT * FROM dbo.[Order Lines] AS l , [x].Users L".toList ∧
      (ofText (selectListed items)).tables =
        [("dbo".toList, "Order Lines".toList), ("x".toList, "Users".toList)] ∧
      (ofText (selectListed items)).aliases.lookup "l".toList =
        some ⟨.named, "x".toList, "Users".toList, [], none⟩ := by
  let lines : ListedTable :=
    { before := []
      first := ⟨"dbo".toList, false, by decide, by decide, by decide⟩
      more := [⟨[], [], ⟨"Order Lines".toList, true, by decide, by decide, by decide⟩, rfl, rfl⟩]
      alias? := some ⟨_, "l".toList, leadsAlias_as, by decide, by decide⟩
      behind := [' ']
      most := by decide
      blankBefore := by decide
      blankBehind := by decide }
  let users : ListedTable :=
    { before := [' ']
      first := ⟨"x".toList, true, by decide, by decide, by decide⟩
      more := [⟨[], [], ⟨"Users".toList, false, by decide, by decide, by decide⟩, rfl, rfl⟩]
      alias? := some ⟨[' '], "L".toList, .blanks (by decide) (by decide), by decide, by decide⟩
      behind := []
      most := by decide
      blankBefore := by decide
      blankBehind := by decide }
  have hbodies : ∀ i ∈ [lines, users], ∀ p ∈ i.parts, p.inBrackets = true →
      holdsBody p.name = false := by
    decide
  have hwords : ∀ i ∈ [lines, users], ∀ p ∈ i.parts, p.inBrackets = true →
      holdsTableWord p.name = false := by
    decide
  obtain ⟨-, -, hexact⟩ := tables_of_list [lines, users] hbodies
  obtain ⟨htables, haliases⟩ := hexact hwords
  refine ⟨[lines, users], by decide, ?_, ?_⟩
  · rw [htables]
    decide
  · rw [haliases]
    decide

/-- A word that introduces tables between the brackets of a name. -/
theorem tables_within_brackets : ∃ items : List ListedTable,
    selectListed items = "SELECT * FROM [a FROM b]".toList ∧
      items.map ListedTable.listed = [("dbo".toList, "a FROM b".toList)] ∧
      (ofText (selectListed items)).tables =
        [("dbo".toList, "a FROM b".toList), ("dbo".toList, "b".toList)] := by
  let table : ListedTable :=
    { before := []
      first := ⟨"a FROM b".toList, true, by decide, by decide, by decide⟩
      more := []
      alias? := none
      behind := []
      most := by decide
      blankBefore := rfl
      blankBehind := rfl }
  exact ⟨[table], by decide, by decide, by decide⟩

end References

end SqlInsight
