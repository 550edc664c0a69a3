/-
Whole documents that are written and read back. The header of a table and the lines behind it put
the table into the one around it; a table without a header of its own comes about with the first of
those in it. So the tables come back in their order, one level in the other.
-/
import SqlInsight.Proofs.Toml.Document
import SqlInsight.Proofs.Toml.Written

namespace SqlInsight.Toml

variable {values tables members : List (Text × Toml)} {path : List Text} {t : Text}

theorem bounds_of_ofInt64? {n : Int} {v : Toml} (h : ofInt64? n = some v) :
    -signedBound ≤ n ∧ n < signedBound := by
  rw [ofInt64?] at h
  split at h
  · assumption
  · contradiction

theorem writes_printValue? {v : Toml} (hv : v.IsScalar) {text : Text}
    (h : printValue? v = some text) : Writes text v := by
  cases hv with
  | string t =>
      obtain rfl := Option.some.inj h
      exact writes_string t
  | natural n =>
      rw [printValue?, Option.map_eq_some_iff] at h
      obtain ⟨fitted, hfits, rfl⟩ := h
      exact writes_natural (Int.ofNat_lt.mp (bounds_of_ofInt64? hfits).2)
  | boolean b =>
      obtain rfl := Option.some.inj h
      exact writes_boolean b
  | strings items =>
      obtain ⟨texts, htexts, rfl⟩ := Option.map_eq_some_iff.mp h
      rw [mapM_string?] at htexts
      obtain rfl := Option.some.inj htexts
      exact writes_strings _

theorem isTable_eq_false {v : Toml} (hv : v.IsScalar) : v.isTable = false := by
  cases hv with
  | string => rfl
  | natural => rfl
  | boolean => rfl
  | strings => rfl

/-- The lines of values. -/
theorem exists_entries (hvalues : ∀ entry ∈ values, entry.2.IsScalar)
    (h : valueLines? values = some t) :
    ∃ entries : List Entry, t = entries.flatMap Entry.line ∧
      (∀ e ∈ entries, Writes e.text e.value) ∧
        (entries.map fun e => (e.key, e.value)) = values := by
  induction values generalizing t with
  | nil =>
      obtain rfl := Option.some.inj h
      exact ⟨[], rfl, fun e he => absurd he List.not_mem_nil, rfl⟩
  | cons entry rest ih =>
      obtain ⟨key, v⟩ := entry
      have hv : v.IsScalar := hvalues _ List.mem_cons_self
      rw [valueLines?, isTable_eq_false hv, if_neg Bool.false_ne_true] at h
      simp only [Option.bind_eq_bind, Option.bind_eq_some_iff] at h
      obtain ⟨text, htext, later, hlater, heq⟩ := h
      obtain rfl := Option.some.inj heq
      obtain ⟨entries, rfl, hwrites, hentries⟩ :=
        ih (fun entry hentry => hvalues entry (List.mem_cons_of_mem _ hentry)) hlater
      refine ⟨⟨key, text, v⟩ :: entries, rfl, ?_, ?_⟩
      · exact List.forall_mem_cons.mpr ⟨writes_printValue? hv htext, hwrites⟩
      · rw [List.map_cons, hentries]

theorem isTable_of_isPlain {levels : Nat}
    (h : ∀ entry ∈ tables, ∃ inner, entry.2 = .table inner ∧ IsPlain levels inner) :
    ∀ entry ∈ tables, entry.2.isTable = true := by
  intro entry hentry
  obtain ⟨inner, htable, -⟩ := h entry hentry
  rw [htable]
  rfl

theorem valueLines?_of_isTable (h : ∀ entry ∈ tables, entry.2.isTable = true) :
    valueLines? tables = some [] := by
  induction tables with
  | nil => rfl
  | cons entry rest ih =>
      rw [valueLines?, if_pos (h entry List.mem_cons_self)]
      exact ih fun entry hentry => h entry (List.mem_cons_of_mem _ hentry)

theorem valueLines?_append (h : ∀ entry ∈ tables, entry.2.isTable = true) :
    valueLines? (values ++ tables) = valueLines? values := by
  induction values with
  | nil => exact valueLines?_of_isTable h
  | cons entry rest ih => rw [List.cons_append, valueLines?, valueLines?, ih]

theorem tableLines?_append (hvalues : ∀ entry ∈ values, entry.2.IsScalar) :
    tableLines? path (values ++ tables) = tableLines? path tables := by
  induction values with
  | nil => rfl
  | cons entry rest ih =>
      have hentry : entry.2.isTable = false := isTable_eq_false (hvalues _ List.mem_cons_self)
      rw [List.cons_append, tableLines?]
      · exact ih fun entry hentry => hvalues entry (List.mem_cons_of_mem _ hentry)
      · rintro key members rfl
        contradiction

/-- A table has a header just if it has values, or is empty. -/
theorem hasHeader_append (hvalues : ∀ entry ∈ values, entry.2.IsScalar)
    (htables : ∀ entry ∈ tables, entry.2.isTable = true) :
    hasHeader (values ++ tables) = (!values.isEmpty || tables.isEmpty) := by
  cases values with
  | cons entry rest =>
      have hentry : entry.2.isTable = false := isTable_eq_false (hvalues _ List.mem_cons_self)
      simp [hasHeader, hentry]
  | nil =>
      have hany : (tables.any fun entry => !entry.2.isTable) = false := by
        rw [List.any_eq_false]
        intro entry hentry
        simp [htables entry hentry]
      rw [hasHeader, List.nil_append, hany, Bool.or_false]
      rfl

/-- The lines of a text turn members of a document into others, whatever follows them. -/
def Brings (m : Members) (t : Text) (m' : Members) : Prop :=
  ∀ header rest result, (∀ header', Reads header' m' rest result) →
    Reads header m (t ++ rest) result

theorem Brings.refl (m : Members) : Brings m [] m :=
  fun _ _ _ h => h _

theorem Brings.trans {m m' m'' : Members} {t' : Text} (h : Brings m t m') (h' : Brings m' t' m'') :
    Brings m (t ++ t') m'' := by
  intro header rest result hrest
  rw [List.append_assoc]
  exact h _ _ _ fun header' => h' header' _ _ hrest

section

variable {m inner : Members} {place : Members → Members}

/-- A header brings about a table, with the values behind it. -/
theorem brings_table (hopens : Members.Opens path m inner place)
    (hplace : Members.IsPlace path place) {key : Text} (hfresh : inner.lookup key = none)
    (hlength : path.length < maxDepth) {entries : List Entry}
    (hwrites : ∀ e ∈ entries, Writes e.text e.value) (hnodup : (entries.map Entry.key).Nodup) :
    Brings m (printHeader (path ++ [key]) ++ entries.flatMap Entry.line)
      (place (inner ++ [(key, .table .header (entries.map Entry.member))])) := by
  intro header rest result h
  rw [List.append_assoc]
  apply Reads.behindHeader (List.concat_ne_nil key path) _ (hopens.openTable hfresh)
  · exact Reads.firstEntries (hplace.under hfresh .header) hwrites hnodup (h _)
  · rw [List.length_append]
    exact hlength

/-- Tables with so many levels at most are put behind the members of the table around them. -/
def BringsTables (levels : Nat) : Prop :=
  ∀ {tables : List (Text × Toml)} {path : List Text} {m inner : Members}
    {place : Members → Members} {t : Text},
    (∀ entry ∈ tables, ∃ members, entry.2 = .table members ∧ IsPlain levels members) →
    Members.Opens path m inner place → Members.IsPlace path place →
    (inner.map Prod.fst ++ tables.map Prod.fst).Nodup → (tables = [] → m = place inner) →
    path.length + levels ≤ maxDepth → tableLines? path tables = some t →
    ∃ items, closeMembers items = tables ∧ Brings m t (place (inner ++ items))

/-- One table is put behind the members of the table around it, if all those in it can be. -/
theorem exists_item {levels : Nat} (hlevels : BringsTables levels)
    (hplain : IsPlain (levels + 1) members) (hopens : Members.Opens path m inner place)
    (hplace : Members.IsPlace path place) {key : Text} (hfresh : inner.lookup key = none)
    (hlength : path.length + (levels + 1) ≤ maxDepth) {values tables : Text}
    (hvalues : valueLines? members = some values)
    (htables : tableLines? (path ++ [key]) members = some tables) :
    ∃ item : Item, item.close = .table members ∧
      Brings m ((if hasHeader members then printHeader (path ++ [key]) else []) ++ values ++ tables)
        (place (inner ++ [(key, item)])) := by
  obtain ⟨hnodup, own, nested, rfl, hown, hnested⟩ := hplain
  have hisTable : ∀ entry ∈ nested, entry.2.isTable = true := isTable_of_isPlain hnested
  have hdepth : (path ++ [key]).length + levels ≤ maxDepth := by
    rw [List.length_append, List.length_singleton]
    omega
  rw [valueLines?_append hisTable] at hvalues
  rw [tableLines?_append hown] at htables
  rw [hasHeader_append hown hisTable]
  obtain ⟨entries, rfl, hwrites, rfl⟩ := exists_entries hown hvalues
  rw [List.map_append, keys_values] at hnodup
  split
  · have hheader := brings_table hopens hplace hfresh (by omega) hwrites
      (List.nodup_append.mp hnodup).1
    have hinside := hplace.under hfresh .header
    obtain ⟨items, hitems, hbrings⟩ := hlevels hnested
      (hinside (entries.map Entry.member)) hinside (by rwa [keys_members])
      (fun _ => rfl) hdepth htables
    refine ⟨.table .header (entries.map Entry.member ++ items), ?_, hheader.trans hbrings⟩
    rw [Item.close, closeMembers_append, closeMembers_entries, hitems]
  · rename_i hheader
    simp only [Bool.or_eq_true, Bool.not_eq_true', not_or, Bool.not_eq_false,
      List.isEmpty_iff] at hheader
    obtain ⟨hnone, hne⟩ := hheader
    obtain rfl : entries = [] := List.map_eq_nil_iff.mp hnone
    obtain ⟨items, hitems, hbrings⟩ := hlevels hnested (hopens.under hfresh)
      (hplace.under hfresh .implied) (by simpa using hnodup) (fun hnil => absurd hnil hne) hdepth
      htables
    refine ⟨.table .implied items, ?_, hbrings⟩
    rw [Item.close, hitems]
    rfl

theorem bringsTables (levels : Nat) : BringsTables levels := by
  induction levels using Nat.strongRecOn with
  | ind levels ih =>
      intro tables path m inner place t htables hopens hplace hnodup hstays hlength ht
      induction tables generalizing m inner t with
      | nil =>
          rw [tableLines?] at ht
          obtain rfl := Option.some.inj ht
          obtain rfl := hstays rfl
          exact ⟨[], rfl, by simpa using Brings.refl (place inner)⟩
      | cons entry rest ihRest =>
          obtain ⟨key, v⟩ := entry
          obtain ⟨members, rfl, hplain⟩ := htables _ List.mem_cons_self
          obtain ⟨below, rfl⟩ := Nat.exists_eq_succ_of_ne_zero (n := levels) (by
            rintro rfl
            exact hplain)
          simp only [tableLines?, Option.bind_eq_bind, Option.bind_eq_some_iff] at ht
          obtain ⟨values, hvalues, nested, hnested, later, hlater, heq⟩ := ht
          obtain rfl := Option.some.inj heq
          have hfresh : inner.lookup key = none := lookup_eq_none_of_nodup hnodup
          obtain ⟨item, hitem, hbrings⟩ := exists_item (ih below below.lt_succ_self) hplain hopens
            hplace hfresh hlength hvalues hnested
          have hkeys : ((inner ++ [(key, item)]).map Prod.fst ++ rest.map Prod.fst).Nodup := by
            simpa using hnodup
          obtain ⟨items, hitems, hmore⟩ := ihRest
            (fun entry hentry => htables entry (List.mem_cons_of_mem _ hentry)) (hplace _) hkeys
            (fun _ => rfl) hlater
          refine ⟨(key, item) :: items, by rw [closeMembers, hitem, hitems], ?_⟩
          rw [List.append_assoc] at hmore
          exact hbrings.trans hmore

end

theorem Reads.of_blankLine {header : List Text} {m result : Members} {rest : Text}
    (h : Reads header m ('\n' :: rest) result) : Reads header m rest result := by
  intro fuel hfuel
  exact h (fuel + 1) (Nat.succ_lt_succ hfuel)

/-- A table without a header has no lines of its own. -/
theorem eq_nil_of_valueLines? (hheader : hasHeader members = false)
    (h : valueLines? members = some t) : t = [] := by
  have htables : ∀ entry ∈ members, entry.2.isTable = true := by
    intro entry hentry
    simp only [hasHeader, Bool.or_eq_false_iff, List.any_eq_false] at hheader
    simpa using hheader.2 entry hentry
  rw [valueLines?_of_isTable htables] at h
  exact (Option.some.inj h).symm

/-- The lines of tables begin with a header, before which a line is left empty. -/
theorem exists_of_tableLines? (h : tableLines? path members = some t) :
    t = [] ∨ ∃ rest, t = '\n' :: '[' :: rest := by
  induction path, members using tableLines?.induct generalizing t with
  | case1 path =>
      rw [tableLines?] at h
      exact Or.inl (Option.some.inj h).symm
  | case2 path key inner rest own ihInner =>
      rename_i ihRest
      simp only [tableLines?, Option.bind_eq_bind, Option.bind_eq_some_iff] at h
      obtain ⟨values, hvalues, nested, hnested, later, hlater, heq⟩ := h
      obtain rfl := Option.some.inj heq
      cases hheader : hasHeader inner with
      | true => exact Or.inr ⟨_, rfl⟩
      | false =>
          obtain rfl := eq_nil_of_valueLines? hheader hvalues
          rcases ihInner hnested with rfl | ⟨more, rfl⟩
          · exact ihRest hlater
          · exact Or.inr ⟨_, rfl⟩
  | case3 path entry rest hentry ih =>
      rw [tableLines?] at h
      · exact ih h
      · exact hentry

/-- A document is read back from its text as it was. -/
theorem ofText?_print? {levels : Nat} (hplain : IsPlain levels members)
    (hlevels : levels ≤ maxDepth) (h : print? members = some t) : ofText? t = some members := by
  obtain ⟨below, rfl⟩ := Nat.exists_eq_succ_of_ne_zero (n := levels) (by
    rintro rfl
    exact hplain)
  obtain ⟨hnodup, values, tables, rfl, hvalues, htables⟩ := hplain
  have hisTable : ∀ entry ∈ tables, entry.2.isTable = true := isTable_of_isPlain htables
  simp only [print?, valueLines?_append hisTable, tableLines?_append hvalues,
    Option.bind_eq_bind, Option.bind_eq_some_iff] at h
  obtain ⟨head, hhead, tail, htail, heq⟩ := h
  obtain ⟨entries, rfl, hwrites, rfl⟩ := exists_entries hvalues hhead
  rw [List.map_append, keys_values] at hnodup
  obtain ⟨items, hitems, hbrings⟩ := bringsTables below htables
    (Members.isPlace_root (entries.map Entry.member)) Members.isPlace_root (by rwa [keys_members])
    (fun _ => rfl) (by simp; omega) htail
  have hread : Reads [] [] (entries.flatMap Entry.line ++ tail)
      (entries.map Entry.member ++ items) := by
    have hrest := hbrings [] [] _ fun header => Reads.nil header _
    rw [List.append_nil] at hrest
    exact Reads.firstEntries Members.isPlace_root hwrites (List.nodup_append.mp hnodup).1 hrest
  rw [← hitems, ← closeMembers_entries, ← closeMembers_append]
  obtain rfl := Option.some.inj heq
  cases entries with
  | nil =>
      rcases exists_of_tableLines? htail with rfl | ⟨rest, rfl⟩
      · exact ofText?_of_reads hread (by simp)
      · exact ofText?_of_reads hread.of_blankLine (by simp)
  | cons e more =>
      obtain ⟨c, inside, hc, hkey⟩ := exists_printKey e.key
      have hhead : ((e :: more).flatMap Entry.line).head? = some c := by
        simp [Entry.line, printLine, hkey]
      have hne : ((e :: more).flatMap Entry.line).isEmpty = false := by
        simp [Entry.line, printLine]
      rw [hne, if_neg Bool.false_ne_true]
      apply ofText?_of_reads hread
      rw [List.head?_append, hhead, Option.some_or, ne_eq, Option.some.injEq]
      exact hc.ne (by decide) (by decide) (by decide)

theorem fits_append : Fits (values ++ tables) ↔ Fits values ∧ Fits tables := by
  induction values with
  | nil => simp [Fits]
  | cons entry rest ih =>
      obtain ⟨key, v⟩ := entry
      cases v with
      | integer n => simp only [List.cons_append, Fits, ih, and_assoc]
      | table inner => simp only [List.cons_append, Fits, ih, and_assoc]
      | _ => simpa only [List.cons_append, Fits] using ih

theorem isSome_printValue?_iff {v : Toml} (hv : v.IsScalar) (key : Text) :
    (printValue? v).isSome ↔ Fits [(key, v)] := by
  cases hv with
  | string => simp [printValue?, Fits]
  | natural n =>
      simp only [printValue?, Option.isSome_map, ofInt64?, Fits, and_true]
      split <;> simp_all
  | boolean => simp [printValue?, Fits]
  | strings items =>
      simp only [printValue?, mapM_string?, Fits, Option.map_some, Option.isSome_some]

theorem fits_cons (entry : Text × Toml) :
    Fits (entry :: values) ↔ Fits [entry] ∧ Fits values := by
  show Fits ([entry] ++ values) ↔ Fits [entry] ∧ Fits values
  exact fits_append

theorem isSome_valueLines?_iff (hvalues : ∀ entry ∈ values, entry.2.IsScalar) :
    (valueLines? values).isSome ↔ Fits values := by
  induction values with
  | nil => simp [valueLines?, Fits]
  | cons entry rest ih =>
      have hv : entry.2.IsScalar := hvalues _ List.mem_cons_self
      have hrest := ih fun entry hentry => hvalues entry (List.mem_cons_of_mem _ hentry)
      rw [fits_cons, ← hrest, ← isSome_printValue?_iff hv entry.1, valueLines?, isTable_eq_false hv,
        if_neg Bool.false_ne_true]
      cases printValue? entry.2 <;> cases valueLines? rest <;> simp

/-- There are lines for a table and for those in it just if all their integers fit. -/
theorem isSome_lines?_iff {levels : Nat} (hplain : IsPlain levels members) (path : List Text) :
    (valueLines? members).isSome ∧ (tableLines? path members).isSome ↔ Fits members := by
  induction levels generalizing members path with
  | zero => exact hplain.elim
  | succ levels ih =>
      obtain ⟨-, values, tables, rfl, hvalues, htables⟩ := hplain
      rw [valueLines?_append (isTable_of_isPlain htables), tableLines?_append hvalues, fits_append,
        isSome_valueLines?_iff hvalues]
      refine and_congr_right fun _ => ?_
      induction tables with
      | nil => simp [tableLines?, Fits]
      | cons entry rest ihRest =>
          obtain ⟨key, v⟩ := entry
          obtain ⟨inner, rfl, hinner⟩ := htables _ List.mem_cons_self
          have hrest := ihRest fun entry hentry => htables entry (List.mem_cons_of_mem _ hentry)
          rw [Fits, ← hrest, ← ih hinner (path ++ [key]), tableLines?]
          cases valueLines? inner <;> cases tableLines? (path ++ [key]) inner <;>
            cases tableLines? path rest <;> simp

/-- There is a text for a document just if its integers fit. -/
theorem isSome_print?_iff {levels : Nat} (hplain : IsPlain levels members) :
    (print? members).isSome ↔ Fits members := by
  rw [← isSome_lines?_iff hplain [], print?]
  cases valueLines? members <;> cases tableLines? [] members <;> simp

/-- The writer and the reader of documents keep what whoever saves one relies on. -/
theorem writesFitting_print? : WritesFitting print? :=
  fun _ hplain => isSome_print?_iff hplain

theorem readsWritten_print? : ReadsWritten print? ofText? :=
  fun members _ hplain ht => ⟨members, ofText?_print? hplain (by decide) ht, .refl members⟩

end SqlInsight.Toml
