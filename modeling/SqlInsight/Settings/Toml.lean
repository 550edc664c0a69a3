/-
The settings as a TOML document. Every key may be left out, and keys that are no settings are passed
over; a section may also be given as an array of its values in order.
-/
import SqlInsight.Settings
import SqlInsight.Toml

namespace SqlInsight.Settings

/-- The values of the fields of a section, as far as they are given. A date has no such fields. -/
def fields? (names : List String) : Toml → Option (List (Text × Toml))
  | .table members => some members
  | .array items => some ((names.map String.toList).zip items)
  | .moment _ => some []
  | _ => none

/-- The value of a field, read by `read`, or the default if it is missing; none if it does not
fit. -/
def fieldOr {α : Type} (fields : List (Text × Toml)) (name : String) (default : α)
    (read : Toml → Option α) : Option α :=
  match fields.lookup name.toList with
  | some value => read value
  | none => some default

/-- One of the words that `ofName?` knows: a string, or a table with the word for its only key and
nothing under it. -/
def wordOfToml? {α : Type} (ofName? : String → Option α) : Toml → Option α
  | .string t => ofName? (String.ofList t)
  | .table [(key, .table [])] => ofName? (String.ofList key)
  | .table [(key, .array [])] => ofName? (String.ofList key)
  | _ => none

def overridesOfToml? : Toml → Option (List (Text × Severity))
  | .table members =>
      members.mapM fun m => (wordOfToml? Severity.ofName? m.2).map fun severity => (m.1, severity)
  | _ => none

/-- The settings about completion that a section gives, put into other settings. -/
def completionOfToml? (s : Settings) (v : Toml) : Option Settings := do
  let r ← fields? ["max_ast_chars", "known_schemas"] v
  let maxTreeChars ← fieldOr r "max_ast_chars" s.maxTreeChars Toml.natural?
  let knownSchemas ← fieldOr r "known_schemas" s.knownSchemas (Toml.list? Toml.string?)
  return { s with maxTreeChars, knownSchemas }

/-- The settings about validation that a section gives, put into other settings. -/
def validationOfToml? (s : Settings) (v : Toml) : Option Settings := do
  let r ← fields? ["select_star", "missing_where", "max_suggestion_distance"] v
  let selectStar ← fieldOr r "select_star" s.selectStar Toml.boolean?
  let missingWhere ← fieldOr r "missing_where" s.missingWhere Toml.boolean?
  let maxSuggestionDistance ←
    fieldOr r "max_suggestion_distance" s.maxSuggestionDistance Toml.natural?
  return { s with selectStar, missingWhere, maxSuggestionDistance }

/-- The settings about severities that a section gives, put into other settings. -/
def severityOfToml? (s : Settings) (v : Toml) : Option Settings := do
  let r ← fields? ["overrides"] v
  let overrides ← fieldOr r "overrides" s.overrides overridesOfToml?
  return { s with overrides }

/-- The settings about the editor session that a section gives, put into other settings. -/
def sessionOfToml? (s : Settings) (v : Toml) : Option Settings := do
  let r ← fields? ["debounce_ms", "schema_snapshot"] v
  let debounce ← fieldOr r "debounce_ms" s.debounce Toml.natural?
  let snapshotFile ← fieldOr r "schema_snapshot" s.snapshotFile fun v => v.string?.map some
  return { s with debounce, snapshotFile }

/-- The settings that a document gives; those it leaves out have their defaults. -/
def ofToml? (r : List (Text × Toml)) : Option Settings := do
  let s : Settings := {}
  let batchSeparator ← fieldOr r "batch_separator" s.batchSeparator Toml.string?
  let primary ← fieldOr r "primary_dialect" s.primary (wordOfToml? Dialect.ofName?)
  let fallback ← fieldOr r "fallback_dialect" s.fallback (wordOfToml? Dialect.ofName?)
  let s := { s with batchSeparator, primary, fallback }
  let s ← fieldOr r "completion" s (completionOfToml? s)
  let s ← fieldOr r "validation" s (validationOfToml? s)
  let s ← fieldOr r "severity" s (severityOfToml? s)
  fieldOr r "lsp" s (sessionOfToml? s)

def completionToml (s : Settings) : List (Text × Toml) :=
  [("max_ast_chars".toList, .integer s.maxTreeChars),
    ("known_schemas".toList, .array (s.knownSchemas.map .string))]

def validationToml (s : Settings) : List (Text × Toml) :=
  [("select_star".toList, .boolean s.selectStar),
    ("missing_where".toList, .boolean s.missingWhere),
    ("max_suggestion_distance".toList, .integer s.maxSuggestionDistance)]

def overridesToml (s : Settings) : List (Text × Toml) :=
  s.overrides.map fun entry => (entry.1, .string entry.2.name.toList)

def sessionToml (s : Settings) : List (Text × Toml) :=
  ("debounce_ms".toList, .integer s.debounce)
    :: (s.snapshotFile.map fun file => ("schema_snapshot".toList, Toml.string file)).toList

/-- The settings as a document with all keys. Only a snapshot that is not named is left out. -/
def toToml (s : Settings) : List (Text × Toml) :=
  [("batch_separator".toList, .string s.batchSeparator),
    ("primary_dialect".toList, .string s.primary.name.toList),
    ("fallback_dialect".toList, .string s.fallback.name.toList),
    ("completion".toList, .table s.completionToml),
    ("validation".toList, .table s.validationToml),
    ("severity".toList, .table [("overrides".toList, .table s.overridesToml)]),
    ("lsp".toList, .table s.sessionToml)]

end SqlInsight.Settings
