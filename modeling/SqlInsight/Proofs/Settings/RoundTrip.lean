/-
Settings that are saved and loaded again. The document has a member for every setting, and each is
read from its place under its key, whatever the order: so all settings come back as they were,
whatever their strings are. Only numbers that do not fit 64 bits with a sign cannot be saved, since
there is no text for them.
-/
import Mathlib.Data.List.Perm.Basic
import SqlInsight.Proofs.Toml.Tables
import SqlInsight.Reading.Standard

namespace SqlInsight.Settings

open Toml (Fits IsPlain IsScalar Rearranged signedBound)

variable {s : Settings}

theorem nodup_completionToml : (s.completionToml.map Prod.fst).Nodup := by
  show ["max_ast_chars".toList, "known_schemas".toList].Nodup
  decide

theorem isScalar_completionToml : ∀ entry ∈ s.completionToml, entry.2.IsScalar := by
  intro entry hentry
  simp only [completionToml, List.mem_cons, List.not_mem_nil, or_false] at hentry
  rcases hentry with rfl | rfl
  · exact .natural _
  · exact .strings _

theorem nodup_validationToml : (s.validationToml.map Prod.fst).Nodup := by
  show ["select_star".toList, "missing_where".toList, "max_suggestion_distance".toList].Nodup
  decide

theorem isScalar_validationToml : ∀ entry ∈ s.validationToml, entry.2.IsScalar := by
  intro entry hentry
  simp only [validationToml, List.mem_cons, List.not_mem_nil, or_false] at hentry
  rcases hentry with rfl | rfl | rfl
  · exact .boolean _
  · exact .boolean _
  · exact .natural _

theorem keys_overridesToml : s.overridesToml.map Prod.fst = s.overrides.map Prod.fst := by
  rw [overridesToml, List.map_map]
  rfl

theorem isScalar_overridesToml : ∀ entry ∈ s.overridesToml, entry.2.IsScalar := by
  intro entry hentry
  obtain ⟨override, -, rfl⟩ := List.mem_map.mp hentry
  exact .string _

theorem nodup_sessionToml : (s.sessionToml.map Prod.fst).Nodup := by
  rw [sessionToml]
  cases s.snapshotFile with
  | none =>
      show ["debounce_ms".toList].Nodup
      decide
  | some file =>
      show ["debounce_ms".toList, "schema_snapshot".toList].Nodup
      decide

theorem isScalar_sessionToml : ∀ entry ∈ s.sessionToml, entry.2.IsScalar := by
  intro entry hentry
  rcases List.mem_cons.mp hentry with rfl | hentry
  · exact .natural _
  · rw [Option.mem_toList, Option.map_eq_some_iff] at hentry
    obtain ⟨file, -, rfl⟩ := hentry
    exact .string _

theorem nodup_toToml : (s.toToml.map Prod.fst).Nodup := by
  show ["batch_separator".toList, "primary_dialect".toList, "fallback_dialect".toList,
    "completion".toList, "validation".toList, "severity".toList, "lsp".toList].Nodup
  decide

/-- The document of settings has values, tables of values, and one table in another. -/
theorem isPlain_toToml (hkeys : (s.overrides.map Prod.fst).Nodup) : IsPlain 3 s.toToml := by
  have hoverrides : IsPlain 1 s.overridesToml :=
    Toml.isPlain_values (keys_overridesToml ▸ hkeys) isScalar_overridesToml 0
  have hseverity : IsPlain 2 [("overrides".toList, .table s.overridesToml)] :=
    ⟨List.pairwise_singleton _ _, [], _, rfl, List.forall_mem_nil _,
      List.forall_mem_singleton.mpr ⟨_, rfl, hoverrides⟩⟩
  refine ⟨nodup_toToml, s.toToml.take 3, s.toToml.drop 3, (List.take_append_drop 3 _).symm, ?_, ?_⟩
  · show ∀ entry ∈ [_, _, _], _
    simp only [List.forall_mem_cons]
    exact ⟨.string _, .string _, .string _, List.forall_mem_nil _⟩
  · show ∀ entry ∈ [_, _, _, _], _
    simp only [List.forall_mem_cons]
    exact ⟨⟨_, rfl, Toml.isPlain_values nodup_completionToml isScalar_completionToml 1⟩,
      ⟨_, rfl, Toml.isPlain_values nodup_validationToml isScalar_validationToml 1⟩,
      ⟨_, rfl, hseverity⟩,
      ⟨_, rfl, Toml.isPlain_values nodup_sessionToml isScalar_sessionToml 1⟩,
      List.forall_mem_nil _⟩

theorem fits_overridesToml : Fits s.overridesToml := by
  rw [overridesToml]
  induction s.overrides with
  | nil => simp only [List.map_nil, Fits]
  | cons entry rest ih => simpa only [List.map_cons, Fits] using ih

/-- The integers of the document are the three numbers of the settings. -/
theorem fits_toToml_iff : Fits s.toToml ↔
    s.maxTreeChars < signedBound ∧ s.maxSuggestionDistance < signedBound ∧
      s.debounce < signedBound := by
  have hsession : Fits s.sessionToml ↔ s.debounce < signedBound := by
    rw [sessionToml]
    cases s.snapshotFile <;> simp [Fits]
  simp [toToml, completionToml, validationToml, Fits, fits_overridesToml, hsession]

theorem list?_strings (items : List Text) :
    Toml.list? Toml.string? (.array (items.map .string)) = some items :=
  Toml.mapM_string? items

theorem wordOfToml?_string {α : Type} {ofName? : String → Option α} {name : String} {word : α}
    (h : ofName? name = some word) : wordOfToml? ofName? (.string name.toList) = some word := by
  rw [wordOfToml?, String.ofList_toList, h]

section

variable {fields members : List (Text × Toml)} (h : Rearranged fields members)
  (hnodup : (fields.map Prod.fst).Nodup) (name : String) {α : Type} (default : α)
  (read : Toml → Option α)

include h hnodup

/-- A field that is written is read from the value under its name. -/
theorem fieldOr_value {v : Toml} (hfield : fields.lookup name.toList = some v) (hv : v.IsScalar) :
    fieldOr members name default read = read v := by
  rw [fieldOr, h.lookup_eq_some hnodup hfield hv]

theorem fieldOr_missing (hfield : fields.lookup name.toList = none) :
    fieldOr members name default read = some default := by
  rw [fieldOr, h.lookup_eq_none hnodup hfield]

end

section

variable {members : List (Text × Toml)}

theorem completionOfToml?_rearranged (h : Rearranged s.completionToml members) (base : Settings) :
    completionOfToml? base (.table members) =
      some { base with maxTreeChars := s.maxTreeChars, knownSchemas := s.knownSchemas } := by
  have hchars := fieldOr_value h nodup_completionToml "max_ast_chars" base.maxTreeChars
    Toml.natural? rfl (.natural s.maxTreeChars)
  have hschemas := fieldOr_value h nodup_completionToml "known_schemas" base.knownSchemas
    (Toml.list? Toml.string?) rfl (.strings s.knownSchemas)
  rw [completionOfToml?, fields?, Option.bind_eq_bind, Option.bind_some, hchars, hschemas,
    list?_strings]
  rfl

theorem validationOfToml?_rearranged (h : Rearranged s.validationToml members) (base : Settings) :
    validationOfToml? base (.table members) =
      some { base with
        selectStar := s.selectStar
        missingWhere := s.missingWhere
        maxSuggestionDistance := s.maxSuggestionDistance } := by
  have hstar := fieldOr_value h nodup_validationToml "select_star" base.selectStar
    Toml.boolean? rfl (.boolean s.selectStar)
  have hwhere := fieldOr_value h nodup_validationToml "missing_where" base.missingWhere
    Toml.boolean? rfl (.boolean s.missingWhere)
  have hdistance := fieldOr_value h nodup_validationToml "max_suggestion_distance"
    base.maxSuggestionDistance Toml.natural? rfl (.natural s.maxSuggestionDistance)
  rw [validationOfToml?, fields?, Option.bind_eq_bind, Option.bind_some, hstar, hwhere, hdistance]
  rfl

/-- The overrides come back in the order in which they are read. -/
theorem overridesOfToml?_rearranged (h : Rearranged s.overridesToml members) :
    ∃ overrides, overrides.Perm s.overrides ∧
      overridesOfToml? (.table members) = some overrides := by
  have hperm : members.Perm s.overridesToml := (h.perm_of_isScalar isScalar_overridesToml).symm
  obtain ⟨overrides, rfl, hoverrides⟩ :=
    (congrFun₂ (List.eq_map_comp_perm _) members s.overrides).mpr hperm
  have hitem : (fun m : Text × Toml =>
      (wordOfToml? Severity.ofName? m.2).map fun severity => (m.1, severity)) ∘
        (fun entry : Text × Severity => (entry.1, .string entry.2.name.toList)) =
      fun entry => pure entry := by
    funext entry
    rw [Function.comp_apply, wordOfToml?_string entry.2.ofName?_name]
    rfl
  refine ⟨overrides, hoverrides, ?_⟩
  rw [overridesOfToml?, List.mapM_map, hitem, List.mapM_pure, List.map_id']
  rfl

theorem severityOfToml?_rearranged
    (h : Rearranged [("overrides".toList, .table s.overridesToml)] members) (base : Settings) :
    ∃ overrides, overrides.Perm s.overrides ∧
      severityOfToml? base (.table members) = some { base with overrides } := by
  obtain ⟨inner, hfield, hinner⟩ :=
    h.lookup_eq_table (List.pairwise_singleton _ _) "overrides".toList rfl
  obtain ⟨overrides, hperm, hread⟩ := overridesOfToml?_rearranged hinner
  refine ⟨overrides, hperm, ?_⟩
  rw [severityOfToml?, fields?, Option.bind_eq_bind, Option.bind_some, fieldOr, hfield]
  simp only [hread]
  rfl

theorem sessionOfToml?_rearranged (h : Rearranged s.sessionToml members) (base : Settings)
    (hbase : base.snapshotFile = none) :
    sessionOfToml? base (.table members) =
      some { base with debounce := s.debounce, snapshotFile := s.snapshotFile } := by
  have hdebounce := fieldOr_value h nodup_sessionToml "debounce_ms" base.debounce Toml.natural? rfl
    (.natural s.debounce)
  have hfile : fieldOr members "schema_snapshot" base.snapshotFile
      (fun v => v.string?.map some) = some s.snapshotFile := by
    have hfields : s.sessionToml = ("debounce_ms".toList, .integer s.debounce) ::
      (s.snapshotFile.map fun file => ("schema_snapshot".toList, Toml.string file)).toList := rfl
    cases hsnapshot : s.snapshotFile with
    | none =>
        rw [hsnapshot] at hfields
        rw [fieldOr_missing h nodup_sessionToml _ _ _ (by rw [hfields]; rfl), hbase]
    | some file =>
        rw [hsnapshot] at hfields
        rw [fieldOr_value h nodup_sessionToml _ _ _ (by rw [hfields]; rfl) (.string file)]
        rfl
  rw [sessionOfToml?, fields?, Option.bind_eq_bind, Option.bind_some, hdebounce, hfile]
  rfl

/-- Settings are read back from their document, whatever order its members are in. -/
theorem ofToml?_rearranged (h : Rearranged s.toToml members) :
    ∃ overrides, overrides.Perm s.overrides ∧ ofToml? members = some { s with overrides } := by
  have hseparator : members.lookup "batch_separator".toList = some (.string s.batchSeparator) :=
    h.lookup_eq_some nodup_toToml rfl (.string _)
  have hprimary : members.lookup "primary_dialect".toList = some (.string s.primary.name.toList) :=
    h.lookup_eq_some nodup_toToml rfl (.string _)
  have hfallback :
      members.lookup "fallback_dialect".toList = some (.string s.fallback.name.toList) :=
    h.lookup_eq_some nodup_toToml rfl (.string _)
  obtain ⟨completion, hcompletion, hinCompletion⟩ :=
    h.lookup_eq_table nodup_toToml "completion".toList rfl
  obtain ⟨validation, hvalidation, hinValidation⟩ :=
    h.lookup_eq_table nodup_toToml "validation".toList rfl
  obtain ⟨severity, hseverity, hinSeverity⟩ :=
    h.lookup_eq_table nodup_toToml "severity".toList rfl
  obtain ⟨session, hsession, hinSession⟩ :=
    h.lookup_eq_table nodup_toToml "lsp".toList rfl
  let base : Settings :=
    { batchSeparator := s.batchSeparator
      primary := s.primary
      fallback := s.fallback
      maxTreeChars := s.maxTreeChars
      knownSchemas := s.knownSchemas
      selectStar := s.selectStar
      missingWhere := s.missingWhere
      maxSuggestionDistance := s.maxSuggestionDistance }
  obtain ⟨overrides, hperm, hread⟩ := severityOfToml?_rearranged hinSeverity base
  refine ⟨overrides, hperm, ?_⟩
  simp only [ofToml?, fieldOr, hseparator, hprimary, hfallback, hcompletion, hvalidation, hseverity,
    hsession, wordOfToml?_string s.primary.ofName?_name, wordOfToml?_string s.fallback.ofName?_name,
    Toml.string?, completionOfToml?_rearranged hinCompletion,
    validationOfToml?_rearranged hinValidation, Option.bind_eq_bind, Option.bind_some]
  rw [hread, Option.bind_some, sessionOfToml?_rearranged hinSession _ rfl]

end

end SqlInsight.Settings

namespace SqlInsight.Project

open Toml (Fits ReadsWritten WritesFitting signedBound)

/-- Let there be texts for just those documents whose integers fit 64 bits with a sign, and let each
text be read as the document that it was made of, up to the order of members. A project whose
numbers fit is saved, if the file can be written; and whoever loads the file has the same project
again, but for the directory, which is that of the file, and for the order of the overrides, of
which each is about a code of its own. Of any other project nothing is written. -/
theorem load_saved {print? : List (Text × Toml) → Option Text} {readers : Readers}
    (hwrites : WritesFitting print?) (hreads : ReadsWritten print? readers.toml?) (p : Project)
    (hkeys : (p.settings.overrides.map Prod.fst).Nodup) (path : Text) :
    if p.settings.maxTreeChars < signedBound ∧ p.settings.maxSuggestionDistance < signedBound ∧
        p.settings.debounce < signedBound then
      ∃ t overrides, overrides.Perm p.settings.overrides ∧
        (∀ {m : Type → Type} [Monad m] [LawfulMonad m] (write : Text → Text → m Bool),
          p.save print? write path =
            (fun written => if written then .ok () else .error .unwritable) <$> write path t) ∧
          ∀ {m : Type → Type} [Monad m] [LawfulMonad m] (files : Files m),
            files.read? path = pure (some t) →
              load readers files path =
                pure (.ok ⟨{ p.settings with overrides }, Path.parent path⟩)
    else
      ∀ {m : Type → Type} [Monad m] (write : Text → Text → m Bool),
        p.save print? write path = pure (.error .unprintable) := by
  have hplain := Settings.isPlain_toToml hkeys
  have hprint := (hwrites _ hplain).trans Settings.fits_toToml_iff
  split
  · rename_i hnumbers
    obtain ⟨t, ht⟩ := Option.isSome_iff_exists.mp (hprint.mpr hnumbers)
    obtain ⟨members, hread, hmembers⟩ := hreads _ t hplain ht
    obtain ⟨overrides, hperm, hsettings⟩ := Settings.ofToml?_rearranged hmembers
    refine ⟨t, overrides, hperm, ?_, ?_⟩
    · intro m _ _ write
      rw [save, ht, map_eq_pure_bind]
    · intro m _ _ files hfile
      have hproject : ofToml? readers path t =
          some ⟨{ p.settings with overrides }, Path.parent path⟩ := by
        rw [ofToml?, hread, Option.bind_eq_bind, Option.bind_some, hsettings]
        rfl
      rw [load, Files.load, hfile, pure_bind]
      simp only [hproject]
  · rename_i hnumbers
    have hnone : print? p.settings.toToml = none := by
      rw [← Option.not_isSome_iff_eq_none]
      exact fun h => hnumbers (hprint.mp h)
    intro m _ write
    rw [save, hnone]

/-- Strings with quotes, line breaks and control characters, a key with a dot, and the greatest
number that can be saved. -/
def intricate : Project where
  settings :=
    { batchSeparator := "'''\n\"\"\"\\".toList
      primary := .generic
      maxTreeChars := 9223372036854775807
      knownSchemas := ["a\tb".toList, [], "\x7f'".toList]
      missingWhere := false
      overrides := [("SELECT_STAR".toList, .error), ("a.\"b".toList, .info)]
      snapshotFile := some "snapshots/ä.json".toList }
  directory := "elsewhere".toList

theorem load_saved_intricate :
    WritesFitting Toml.print? ∧ ReadsWritten Toml.print? standardReaders.toml? ∧
      (intricate.settings.overrides.map Prod.fst).Nodup ∧
      ∃ t overrides, overrides.Perm intricate.settings.overrides ∧
        intricate.save (m := StateM Text) Toml.print? (fun _ t _ => (true, t))
            "etc/sqlsense.toml".toList [] =
          (.ok (), t) ∧
        load (m := Id) standardReaders ⟨fun _ => some t, fun _ => true⟩
            "etc/sqlsense.toml".toList =
          .ok ⟨{ intricate.settings with overrides }, "etc".toList⟩ := by
  have hwrites : WritesFitting Toml.print? := Toml.writesFitting_print?
  have hreads : ReadsWritten Toml.print? standardReaders.toml? := Toml.readsWritten_print?
  have hkeys : (intricate.settings.overrides.map Prod.fst).Nodup := by decide
  have hsaved := load_saved hwrites hreads intricate hkeys "etc/sqlsense.toml".toList
  rw [if_pos (by decide)] at hsaved
  obtain ⟨t, overrides, hperm, hboth⟩ := hsaved
  have hsave := hboth.1 (m := StateM Text) fun _ t _ => (true, t)
  have hload := hboth.2 (m := Id) ⟨fun _ => some t, fun _ => true⟩ rfl
  refine ⟨hwrites, hreads, hkeys, t, overrides, hperm, ?_, hload⟩
  rw [hsave]
  rfl

/-- The settings may have a number of 64 bits for which no document has a text. -/
theorem not_saved_beyond_signed :
    9223372036854775808 < UInt64.size ∧ WritesFitting Toml.print? ∧
      save (m := Id) Toml.print? (fun _ _ => true)
        ⟨{ debounce := 9223372036854775808 }, []⟩ fileName = .error .unprintable := by
  have hwrites : WritesFitting Toml.print? := Toml.writesFitting_print?
  have hplain := Settings.isPlain_toToml (s := { debounce := 9223372036854775808 }) List.nodup_nil
  have hfits : ¬ Fits (Settings.toToml { debounce := 9223372036854775808 }) := by
    rw [Settings.fits_toToml_iff]
    decide
  have hprint : Toml.print? (Settings.toToml { debounce := 9223372036854775808 }) = none := by
    rwa [← Option.not_isSome_iff_eq_none, hwrites _ hplain]
  rw [save, hprint]
  exact ⟨by decide, hwrites, rfl⟩

end SqlInsight.Project
