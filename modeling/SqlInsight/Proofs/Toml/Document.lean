/-
Documents that are written and read back. A line with a key and a value puts the value under the key
into the table of its header; so lines with different keys, none of them in the table yet, come back
as the members of that table.
-/
import SqlInsight.Proofs.Toml.Number
import SqlInsight.Proofs.Toml.Quoted

namespace SqlInsight.Toml

/-- The first character of a written key. -/
def beginsKey (c : Char) : Prop :=
  isBare c = true ∨ c = '"' ∨ c = '\''

theorem beginsKey.ne {c d : Char} (h : beginsKey c) (hbare : isBare d = false)
    (hdouble : d ≠ '"') (hsingle : d ≠ '\'') : c ≠ d := by
  rintro rfl
  rcases h with hc | rfl | rfl
  · rw [hbare] at hc
    contradiction
  · exact hdouble rfl
  · exact hsingle rfl

theorem exists_printKey (t : Text) : ∃ c inside, beginsKey c ∧ printKey t = c :: inside := by
  unfold printKey
  dsimp only
  split
  · rename_i hbare
    cases t with
    | nil => simp at hbare
    | cons c more =>
        refine ⟨c, more, Or.inl ?_, rfl⟩
        simp only [Bool.and_eq_true, List.all_eq_true] at hbare
        exact hbare.2 c List.mem_cons_self
  · split
    · exact ⟨_, _, Or.inr (Or.inl rfl), rfl⟩
    · split
      · exact ⟨_, _, Or.inr (Or.inr rfl), rfl⟩
      · exact ⟨_, _, Or.inr (Or.inl rfl), rfl⟩

/-- A part of a key without quotes ends before what may not stand in it. -/
theorem keyPart?_bare {t : Text} (hne : t ≠ []) (ht : ∀ c ∈ t, isBare c = true) {c : Char}
    (hc : isBare c = false) (rest : Text) : keyPart? (t ++ c :: rest) = some (t, c :: rest) := by
  have hname : (t ++ c :: rest).takeWhile isBare = t := by
    rw [List.takeWhile_append_of_pos ht]
    simp [hc]
  have hdrop : (t ++ c :: rest).drop t.length = c :: rest := List.drop_left
  obtain ⟨d, more, rfl⟩ := List.exists_cons_of_ne_nil hne
  have hd := ht d List.mem_cons_self
  unfold keyPart?
  split
  · rename_i heq
    obtain ⟨rfl, -⟩ := List.cons.inj heq
    exact absurd hd (by decide)
  · rename_i heq
    obtain ⟨rfl, -⟩ := List.cons.inj heq
    exact absurd hd (by decide)
  · simp only [hname, hdrop]
    rfl

theorem keyPart?_basicString (t rest : Text) :
    keyPart? (basicString t ++ rest) = some (t, rest) := by
  have hstring : basicString t ++ rest = '"' :: (t.flatMap (escapeChar false) ++ '"' :: rest) := by
    simp [basicString]
  rw [hstring, keyPart?]
  apply basicFrom_escaped
  rw [List.length_append]
  omega

/-- Every key that is written is read back. -/
theorem keyPart?_printKey (t : Text) {c : Char} (hc : isBare c = false) (rest : Text) :
    keyPart? (printKey t ++ c :: rest) = some (t, c :: rest) := by
  unfold printKey
  dsimp only
  split
  · rename_i hbare
    simp only [Bool.and_eq_true, List.all_eq_true, Bool.not_eq_true',
      List.isEmpty_eq_false_iff] at hbare
    exact keyPart?_bare hbare.1 hbare.2 hc rest
  · split
    · exact keyPart?_basicString t _
    · split
      · rename_i hliteral
        simp only [Bool.and_eq_true, Bool.not_eq_true', Bool.or_eq_false_iff] at hliteral
        obtain ⟨⟨hescapes, hbreak⟩, hquote⟩ := hliteral
        have hstring : '\'' :: t ++ ['\''] ++ c :: rest = '\'' :: (t ++ '\'' :: c :: rest) := by
          simp
        rw [hstring, keyPart?]
        apply literalFrom_append
        intro d hd
        refine ⟨isPlain_of_one_line hescapes hbreak hd, ?_⟩
        rintro rfl
        rw [Text.contains_singleton_iff.mpr hd] at hquote
        contradiction
      · exact keyPart?_basicString t _

theorem skipBlanks_printKey (t rest : Text) :
    skipBlanks (printKey t ++ rest) = printKey t ++ rest := by
  obtain ⟨c, inside, hc, hkey⟩ := exists_printKey t
  rw [hkey, List.cons_append]
  apply skipBlanks_cons
  · exact hc.ne (by decide) (by decide) (by decide)
  · exact hc.ne (by decide) (by decide) (by decide)

/-- A text writes a value: it begins with no blank and is read as the value up to the end of its
line. -/
structure Writes (text : Text) (value : Toml) : Prop where
  skipBlanks : ∀ rest, skipBlanks (text ++ rest) = text ++ rest
  value : ∀ rest, value? maxDepth (text ++ '\n' :: rest) = some (value, '\n' :: rest)

theorem writes_string (t : Text) : Writes (printString t) (.string t) := by
  refine ⟨fun rest => ?_, fun rest => value?_printString _ t (by simp) (by simp)⟩
  obtain ⟨quote, inside, hquote, hstring⟩ := exists_printString t
  rw [hstring, List.cons_append]
  obtain ⟨⟨hspace, htab, -⟩, -⟩ := blank_of_quote hquote
  exact skipBlanks_cons hspace htab _

theorem writes_strings (items : List Text) :
    Writes (printStrings items) (.array (items.map .string)) := by
  refine ⟨fun rest => ?_, fun rest => value?_printStrings _ items _⟩
  have hbracket : ∃ inside, printStrings items = '[' :: inside := by
    match items with
    | [] => exact ⟨_, rfl⟩
    | [item] => exact ⟨_, rfl⟩
    | first :: second :: more => exact ⟨_, rfl⟩
  obtain ⟨inside, hstrings⟩ := hbracket
  rw [hstrings]
  rfl

theorem writes_natural {n : Nat} (hn : n < signedBound) :
    Writes (toString n).toList (.integer n) := by
  have hdigits : (toString n).toList = Nat.toDigits 10 n := Nat.toList_repr
  obtain ⟨c, more, hcons, hc⟩ := exists_digit_toDigits n
  have hne {d : Char} (hd : d.isDigit = false) : c ≠ d := by
    rintro rfl
    rw [hc] at hd
    contradiction
  rw [hdigits]
  refine ⟨fun rest => ?_, fun rest => ?_⟩
  · rw [hcons]
    exact skipBlanks_cons (hne (by decide)) (hne (by decide)) _
  · rw [← number?_toDigits hn rest, hcons, List.cons_append, value?]
    all_goals
      intros
      rename_i heq
      exact hne (by decide) (List.cons.inj heq).1

theorem writes_boolean (b : Bool) : Writes (if b then "true" else "false").toList (.boolean b) := by
  cases b with
  | true => exact ⟨fun rest => rfl, fun rest => rfl⟩
  | false => exact ⟨fun rest => rfl, fun rest => rfl⟩

theorem key?_printKey (t : Text) (rest : Text) :
    key? (printKey t ++ " = ".toList ++ rest) = some ([t], "= ".toList ++ rest) := by
  have hpart : keyPart? (printKey t ++ ' ' :: ("= ".toList ++ rest)) =
      some (t, ' ' :: ("= ".toList ++ rest)) := keyPart?_printKey t (by decide) _
  have hline : printKey t ++ " = ".toList ++ rest = printKey t ++ ' ' :: ("= ".toList ++ rest) := by
    simp
  have hblank : skipBlanks (' ' :: ("= ".toList ++ rest)) = '=' :: ' ' :: rest := rfl
  rw [hline, key?, maxDepth, keyParts?, skipBlanks_printKey, hpart]
  simp only [Option.bind_eq_bind, Option.bind_some, hblank]
  rfl

theorem keyValue?_printLine {text : Text} {value : Toml} (h : Writes text value) (key rest : Text) :
    keyValue? (value? maxDepth) (printLine key text ++ rest) =
      some (([key], value), '\n' :: rest) := by
  have hline : printLine key text ++ rest =
      printKey key ++ " = ".toList ++ (text ++ '\n' :: rest) := by
    simp [printLine]
  have hafter : after? '=' ("= ".toList ++ (text ++ '\n' :: rest)) =
      some (' ' :: (text ++ '\n' :: rest)) := rfl
  have hblank : skipBlanks (' ' :: (text ++ '\n' :: rest)) = text ++ '\n' :: rest :=
    h.skipBlanks _
  rw [hline, keyValue?, key?_printKey]
  simp only [Option.bind_eq_bind, Option.bind_some, hafter, hblank, h.value]
  rfl

/-- The members that the lines of a text add to a document, given the fuel for them. -/
def Reads (header : List Text) (m : Members) (t : Text) (result : Members) : Prop :=
  ∀ fuel, t.length < fuel → readLines header m fuel t = some result

section

variable {header : List Text} {m m' result : Members} {rest : Text}

theorem Reads.nil (header : List Text) (m : Members) : Reads header m [] m := by
  intro fuel hfuel
  obtain ⟨fuel, rfl⟩ := Nat.exists_eq_succ_of_ne_zero (Nat.ne_of_gt hfuel)
  rfl

theorem Reads.blankLine (h : Reads header m rest result) :
    Reads header m ('\n' :: rest) result := by
  intro fuel hfuel
  rw [List.length_cons] at hfuel
  obtain ⟨fuel, rfl⟩ := Nat.exists_eq_succ_of_ne_zero (n := fuel) (by omega)
  exact h fuel (by omega)

/-- A line puts a value under a key. -/
theorem Reads.line {text key : Text} {value : Toml} (htext : Writes text value)
    (hassign : m.assignUnder header [key] value = some m') (h : Reads header m' rest result) :
    Reads header m (printLine key text ++ rest) result := by
  intro fuel hfuel
  have hread := keyValue?_printLine htext key rest
  obtain ⟨c, inside, hc, hkey⟩ := exists_printKey key
  have hcons : printLine key text ++ rest =
      c :: (inside ++ " = ".toList ++ text ++ ['\n'] ++ rest) := by
    simp [printLine, hkey]
  rw [hcons] at hread hfuel ⊢
  simp only [List.length_cons, List.length_append] at hfuel
  obtain ⟨fuel, rfl⟩ := Nat.exists_eq_succ_of_ne_zero (n := fuel) (by omega)
  have hfirst : ¬ (c = '#' ∨ c = '\n' ∨ c = '\r') := by
    rintro (rfl | rfl | rfl)
    · exact hc.ne (by decide) (by decide) (by decide) rfl
    · exact hc.ne (by decide) (by decide) (by decide) rfl
    · exact hc.ne (by decide) (by decide) (by decide) rfl
  have hbracket : c ≠ '[' := hc.ne (by decide) (by decide) (by decide)
  have hskip : skipBlanks (c :: (inside ++ " = ".toList ++ text ++ ['\n'] ++ rest)) =
      c :: (inside ++ " = ".toList ++ text ++ ['\n'] ++ rest) :=
    skipBlanks_cons (hc.ne (by decide) (by decide) (by decide))
      (hc.ne (by decide) (by decide) (by decide)) _
  have hend : afterLine? ('\n' :: rest) = some rest := rfl
  rw [Nat.succ_eq_add_one, readLines, hskip]
  split
  · contradiction
  · rename_i heq
    exact absurd (List.cons.inj heq).1 hbracket
  · rename_i heq
    exact absurd (List.cons.inj heq).1 hbracket
  · rename_i heq
    obtain ⟨rfl, rfl⟩ := List.cons.inj heq
    rw [if_neg hfirst, hread]
    simp only [Option.bind_eq_bind, Option.bind_some, hassign, hend]
    exact h fuel (by omega)

/-- The parts of a key are read up to the bracket behind it. -/
theorem keyParts?_printKey {path : List Text} (hne : path ≠ []) (rest : Text) {fuel : Nat}
    (hfuel : path.length ≤ fuel) :
    keyParts? fuel (List.intercalate ['.'] (path.map printKey) ++ ']' :: rest) =
      some (path, ']' :: rest) := by
  induction path generalizing fuel with
  | nil => exact absurd rfl hne
  | cons part more ih =>
      rw [List.length_cons] at hfuel
      obtain ⟨fuel, rfl⟩ := Nat.exists_eq_succ_of_ne_zero (n := fuel) (by omega)
      cases more with
      | nil =>
          have hsingle : List.intercalate ['.'] ([part].map printKey) = printKey part := by
            simp [List.intercalate]
          have hpart : keyPart? (printKey part ++ ']' :: rest) = some (part, ']' :: rest) :=
            keyPart?_printKey part (by decide) rest
          have hblank : skipBlanks (']' :: rest) = ']' :: rest := rfl
          rw [hsingle, Nat.succ_eq_add_one, keyParts?, skipBlanks_printKey, hpart]
          simp only [Option.bind_eq_bind, Option.bind_some, hblank]
          rfl
      | cons second later =>
          have hfuel' : (second :: later).length ≤ fuel := by omega
          have hmore := ih (List.cons_ne_nil second later) hfuel'
          have hdot :
              List.intercalate ['.'] ((part :: second :: later).map printKey) ++ ']' :: rest =
                printKey part ++ '.' ::
                  (List.intercalate ['.'] ((second :: later).map printKey) ++ ']' :: rest) := by
            rw [List.map_cons, List.map_cons, List.intercalate_cons_cons]
            simp
          have hpart := keyPart?_printKey part (c := '.') (by decide)
            (List.intercalate ['.'] ((second :: later).map printKey) ++ ']' :: rest)
          have hblank (x : Text) : skipBlanks ('.' :: x) = '.' :: x := rfl
          rw [hdot, Nat.succ_eq_add_one, keyParts?, skipBlanks_printKey, hpart]
          simp only [Option.bind_eq_bind, Option.bind_some, hblank, hmore]
          rfl

/-- A written key does not begin with a bracket. -/
theorem exists_intercalate_printKey {path : List Text} (hne : path ≠ []) (rest : Text) :
    ∃ c more, List.intercalate ['.'] (path.map printKey) ++ rest = c :: more ∧ c ≠ '[' := by
  obtain ⟨part, later, rfl⟩ := List.exists_cons_of_ne_nil hne
  obtain ⟨c, inside, hc, hkey⟩ := exists_printKey part
  have hbracket : c ≠ '[' := hc.ne (by decide) (by decide) (by decide)
  cases later with
  | nil => exact ⟨c, inside ++ rest, by simp [List.intercalate, hkey], hbracket⟩
  | cons second later =>
      exact ⟨c, _, by rw [List.map_cons, List.map_cons, List.intercalate_cons_cons, hkey]; rfl,
        hbracket⟩

/-- A header opens the table that it names. -/
theorem Reads.behindHeader {path : List Text} (hne : path ≠ []) (hlength : path.length ≤ maxDepth)
    (hopen : m.openTable path = some m') (h : Reads path m' rest result) :
    Reads header m (printHeader path ++ rest) result := by
  have hkey := keyParts?_printKey hne ('\n' :: rest) hlength
  have hline : printHeader path ++ rest =
      '\n' :: '[' :: (List.intercalate ['.'] (path.map printKey) ++ ']' :: '\n' :: rest) := by
    simp [printHeader]
  obtain ⟨c, more, hcons, hc⟩ := exists_intercalate_printKey hne (']' :: '\n' :: rest)
  have hend : afterLine? ('\n' :: rest) = some rest := rfl
  have hafter : after? ']' (']' :: '\n' :: rest) = some ('\n' :: rest) := rfl
  have hskip : skipBlanks ('[' :: c :: more) = '[' :: c :: more := rfl
  have hshort : rest.length < (c :: more).length := by
    rw [← hcons]
    simp
    omega
  rw [hline, hcons]
  rw [hcons] at hkey
  apply Reads.blankLine
  intro fuel hfuel
  rw [List.length_cons] at hfuel
  obtain ⟨fuel, rfl⟩ := Nat.exists_eq_succ_of_ne_zero (n := fuel) (by omega)
  rw [Nat.succ_eq_add_one, readLines, hskip]
  split
  · contradiction
  · rename_i heq
    exact absurd (List.cons.inj (List.cons.inj heq).2).1 hc
  · rename_i heq
    obtain ⟨-, rfl⟩ := List.cons.inj heq
    rw [key?, hkey]
    simp only [Option.bind_eq_bind, Option.bind_some, hafter, hend, hopen]
    exact h fuel (by omega)
  · rename_i hbracket heq
    exact absurd (List.cons.inj heq).1.symm hbracket

end

namespace Members

variable {path : List Text} {place : Members → Members} {m inner : Members} {key : Text}

theorem lookup_append_singleton (h : inner.lookup key = none) (item : Item) :
    (inner ++ [(key, item)]).lookup key = some item := by
  rw [List.lookup_append, h]
  simp

theorem put_append_singleton (h : inner.lookup key = none) (item item' : Item) :
    Keyed.put key item' (inner ++ [(key, item)]) = inner ++ [(key, item')] := by
  induction inner with
  | nil => simp [Keyed.put]
  | cons entry rest ih =>
      obtain ⟨other, value⟩ := entry
      rw [List.lookup_cons] at h
      by_cases hother : key = other
      · subst hother
        simp at h
      · have hne : (key == other) = false := beq_eq_false_iff_ne.mpr hother
        rw [hne] at h
        rw [List.cons_append, Keyed.put, if_neg fun heq => hother heq.symm, ih h, List.cons_append]

/-- Change the members of the table that a path names. -/
def descendAll (f : Members → Option Members) (path : List Text) : Members → Option Members :=
  path.foldr (fun key f => descend f key) f

theorem descendAll_append_singleton (f : Members → Option Members) (path : List Text)
    (key : Text) : descendAll f (path ++ [key]) = descendAll (descend f key) path := by
  rw [descendAll, List.foldr_append]
  rfl

theorem openTable_append_singleton (path : List Text) (key : Text) :
    openTable (path ++ [key]) = descendAll (openTable [key]) path := by
  induction path with
  | nil => rfl
  | cons part more ih =>
      have hne : more ++ [key] ≠ [] := List.concat_ne_nil key more
      funext m
      rw [List.cons_append, openTable, ih]
      · rfl
      · exact hne

theorem assignUnder_eq_descendAll (header key : List Text) (value : Toml) :
    assignUnder header key value = descendAll (assignUnder [] key value) header := by
  induction header with
  | nil => rfl
  | cons part more ih =>
      funext m
      rw [assignUnder, ih]
      rfl

/-- A path names the table with the members `inner` in a document, or one that is not there yet and
comes about without any; and `place` puts others in the place of these. -/
def Opens (path : List Text) (m inner : Members) (place : Members → Members) : Prop :=
  ∀ f, descendAll f path m = (f inner).map place

/-- A path names the table the members of which `place` puts into a document. -/
def IsPlace (path : List Text) (place : Members → Members) : Prop :=
  ∀ inner, Opens path (place inner) inner place

theorem isPlace_root : IsPlace [] id := by
  intro inner f
  exact (Option.map_id' (x := f inner)).symm

/-- A new table comes about by a path into it. -/
theorem Opens.under (h : Opens path m inner place) (hfresh : inner.lookup key = none) :
    Opens (path ++ [key]) m []
      fun members => place (inner ++ [(key, .table .implied members)]) := by
  intro f
  rw [descendAll_append_singleton, h, descend, hfresh, Option.map_map]
  rfl

theorem IsPlace.under (h : IsPlace path place) (hfresh : inner.lookup key = none)
    (form : TableForm) :
    IsPlace (path ++ [key]) fun members => place (inner ++ [(key, .table form members)]) := by
  intro members f
  have hput (members' : Members) : Keyed.put key (.table form members')
      (inner ++ [(key, .table form members)]) = inner ++ [(key, .table form members')] :=
    put_append_singleton hfresh _ _
  rw [descendAll_append_singleton, h, descend, lookup_append_singleton hfresh]
  simp only [hput, Option.map_map]
  rfl

theorem Opens.openTable (h : Opens path m inner place) (hfresh : inner.lookup key = none) :
    m.openTable (path ++ [key]) = some (place (inner ++ [(key, .table .header [])])) := by
  rw [openTable_append_singleton, h, Members.openTable, hfresh]
  rfl

theorem IsPlace.assignUnder (h : IsPlace path place) (hfresh : inner.lookup key = none)
    (value : Toml) : (place inner).assignUnder path [key] value =
      some (place (inner ++ [(key, .value value)])) := by
  rw [assignUnder_eq_descendAll, h]
  simp [Members.assignUnder, Members.assign, hfresh]

end Members

/-- A key with a text that writes a value. -/
structure Entry where
  key : Text
  text : Text
  value : Toml

def Entry.line (e : Entry) : Text :=
  printLine e.key e.text

/-- What stands under the key of an entry. -/
def Entry.member (e : Entry) : Text × Item :=
  (e.key, .value e.value)

theorem keys_members (entries : List Entry) :
    (entries.map Entry.member).map Prod.fst = entries.map Entry.key := by
  rw [List.map_map]
  rfl

theorem keys_values (entries : List Entry) :
    (entries.map fun e => (e.key, e.value)).map Prod.fst = entries.map Entry.key := by
  rw [List.map_map]
  rfl

theorem lookup_eq_none_of_nodup {inner : Members} {key : Text} {more : List Text}
    (hnodup : (inner.map Prod.fst ++ key :: more).Nodup) : inner.lookup key = none := by
  rw [List.lookup_eq_none_iff]
  intro member hmember
  have hapart := (List.nodup_append.mp hnodup).2.2
  rw [bne_iff_ne]
  exact (hapart member.1 (List.mem_map_of_mem hmember) key List.mem_cons_self).symm

/-- Lines with different keys put their values into the table of their header. -/
theorem Reads.entries {header : List Text} {place : Members → Members}
    (hplace : Members.IsPlace header place) {entries : List Entry}
    (hwrites : ∀ e ∈ entries, Writes e.text e.value) {inner : Members}
    (hnodup : (inner.map Prod.fst ++ entries.map Entry.key).Nodup) {rest : Text} {result : Members}
    (h : Reads header (place (inner ++ entries.map Entry.member)) rest result) :
    Reads header (place inner) (entries.flatMap Entry.line ++ rest) result := by
  induction entries generalizing inner with
  | nil => simpa using h
  | cons e more ih =>
      have hfresh : inner.lookup e.key = none := lookup_eq_none_of_nodup hnodup
      rw [List.flatMap_cons, List.append_assoc]
      apply Reads.line (hwrites e List.mem_cons_self) (hplace.assignUnder hfresh e.value)
      apply ih fun d hd => hwrites d (List.mem_cons_of_mem e hd)
      · simpa using hnodup
      · simpa [Entry.member] using h

theorem Reads.firstEntries {header : List Text} {place : Members → Members}
    (hplace : Members.IsPlace header place) {entries : List Entry}
    (hwrites : ∀ e ∈ entries, Writes e.text e.value) (hnodup : (entries.map Entry.key).Nodup)
    {rest : Text} {result : Members}
    (h : Reads header (place (entries.map Entry.member)) rest result) :
    Reads header (place []) (entries.flatMap Entry.line ++ rest) result :=
  Reads.entries hplace hwrites (by simpa using hnodup) (by simpa using h)

theorem closeMembers_append (first second : Members) :
    closeMembers (first ++ second) = closeMembers first ++ closeMembers second := by
  induction first with
  | nil => rfl
  | cons member rest ih => rw [List.cons_append, closeMembers, closeMembers, ih, List.cons_append]

/-- The values of the entries stand under their keys in a document that is complete. -/
theorem closeMembers_entries (entries : List Entry) :
    closeMembers (entries.map Entry.member) = entries.map fun e => (e.key, e.value) := by
  induction entries with
  | nil => rfl
  | cons e rest ih => rw [List.map_cons, Entry.member, closeMembers, ih, Item.close, List.map_cons]

/-- A document that begins with no byte order mark is read line by line. -/
theorem ofText?_of_reads {t : Text} {m : Members} (h : Reads [] [] t m)
    (hmark : t.head? ≠ some '\ufeff') : ofText? t = some (closeMembers m) := by
  rw [ofText?, if_neg hmark, h _ (Nat.lt_succ_self _)]
  rfl

end SqlInsight.Toml
