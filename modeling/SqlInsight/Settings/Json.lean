/-
The settings as a JSON object. Every member may be left out, and members that are no settings are
passed over.
-/
import SqlInsight.Json.Record
import SqlInsight.Settings

namespace SqlInsight.Settings

open Json (required optional record? text? list? nullable?)

/-- One of the words that `ofName?` knows: a string, or an object with the word for its only member
and nothing under it. -/
def wordOfJson? {α : Type} (ofName? : String → Option α) : Json → Option α
  | .string s => ofName? s
  | .object [(name, .null)] => ofName? name
  | _ => none

/-- The overrides that the members of an object give; of two of one name the last counts. -/
def overridesOfJson? : Json → Option (List (Text × Severity))
  | .object members =>
      members.foldlM (fun list m => do
        let severity ← wordOfJson? Severity.ofName? m.2
        return Keyed.put m.1.toList severity list) []
  | _ => none

/-- The settings about completion that a record gives, put into other settings. -/
def completionOfJson? (s : Settings) (j : Json) : Option Settings := do
  let r ← record? ["max_ast_chars", "known_schemas"] j
  let maxTreeChars ← optional r "max_ast_chars" s.maxTreeChars Json.natural?
  let knownSchemas ← optional r "known_schemas" s.knownSchemas (list? text?)
  return { s with maxTreeChars, knownSchemas }

/-- The settings about validation that a record gives, put into other settings. -/
def validationOfJson? (s : Settings) (j : Json) : Option Settings := do
  let r ← record? ["select_star", "missing_where", "max_suggestion_distance"] j
  let selectStar ← optional r "select_star" s.selectStar Json.bool?
  let missingWhere ← optional r "missing_where" s.missingWhere Json.bool?
  let maxSuggestionDistance ←
    optional r "max_suggestion_distance" s.maxSuggestionDistance Json.natural?
  return { s with selectStar, missingWhere, maxSuggestionDistance }

/-- The settings about severities that a record gives, put into other settings. -/
def severityOfJson? (s : Settings) (j : Json) : Option Settings := do
  let r ← record? ["overrides"] j
  let overrides ← optional r "overrides" s.overrides overridesOfJson?
  return { s with overrides }

/-- The settings about the editor session that a record gives, put into other settings. -/
def sessionOfJson? (s : Settings) (j : Json) : Option Settings := do
  let r ← record? ["debounce_ms", "schema_snapshot"] j
  let debounce ← optional r "debounce_ms" s.debounce Json.natural?
  let snapshotFile ← optional r "schema_snapshot" s.snapshotFile (nullable? text?)
  return { s with debounce, snapshotFile }

/-- The settings that a record gives; those it leaves out have their defaults. -/
def ofJson? (j : Json) : Option Settings := do
  let r ← record? ["batch_separator", "primary_dialect", "fallback_dialect", "completion",
    "validation", "severity", "lsp"] j
  let s : Settings := {}
  let batchSeparator ← optional r "batch_separator" s.batchSeparator text?
  let primary ← optional r "primary_dialect" s.primary (wordOfJson? Dialect.ofName?)
  let fallback ← optional r "fallback_dialect" s.fallback (wordOfJson? Dialect.ofName?)
  let s := { s with batchSeparator, primary, fallback }
  let s ← optional r "completion" s (completionOfJson? s)
  let s ← optional r "validation" s (validationOfJson? s)
  let s ← optional r "severity" s (severityOfJson? s)
  optional r "lsp" s (sessionOfJson? s)

def toJson (s : Settings) : Json :=
  .object [("batch_separator", Json.ofText s.batchSeparator),
    ("primary_dialect", .string s.primary.name), ("fallback_dialect", .string s.fallback.name),
    ("completion", .object [("max_ast_chars", .natural s.maxTreeChars),
      ("known_schemas", .array (s.knownSchemas.map Json.ofText))]),
    ("validation", .object [("select_star", .bool s.selectStar),
      ("missing_where", .bool s.missingWhere),
      ("max_suggestion_distance", .natural s.maxSuggestionDistance)]),
    ("severity", .object [("overrides", .object (s.overrides.map fun entry =>
      (String.ofList entry.1, .string entry.2.name)))]),
    ("lsp", .object [("debounce_ms", .natural s.debounce),
      ("schema_snapshot", Json.textOrNull s.snapshotFile)])]

end SqlInsight.Settings
