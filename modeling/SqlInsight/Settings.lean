/-
The settings of the engine: how buffers are cut and read, what completion and validation take into
account, and how the editor session works. Each setting has a default.
-/
import SqlInsight.Diagnostic
import SqlInsight.Grammar.Dialect
import SqlInsight.Keyed

namespace SqlInsight

/-- The settings of the engine. Overrides of severities go by the name of the kind of finding. -/
structure Settings where
  batchSeparator : Text := "GO".toList
  primary : Dialect := .mssql
  fallback : Dialect := .mysql
  maxTreeChars : Nat := 10000
  knownSchemas : List Text := ["dbo".toList, "sys".toList, "information_schema".toList]
  selectStar : Bool := true
  missingWhere : Bool := true
  maxSuggestionDistance : Nat := 2
  overrides : List (Text × Severity) := []
  debounce : Nat := 500
  snapshotFile : Option Text := none
deriving Repr, DecidableEq

namespace Settings

instance : Inhabited Settings := ⟨{}⟩

/-- Whether a name is that of a known schema, in any ASCII case. -/
def isKnownSchema (s : Settings) (name : Text) : Bool :=
  s.knownSchemas.any fun schema => schema.sameAscii name

/-- The severity of a kind of finding: the overriding one, or else the one given. -/
def severityOf (s : Settings) (code : Code) (otherwise : Severity) : Severity :=
  (s.overrides.lookup code.name.toList).getD otherwise

def withOverride (s : Settings) (code : Code) (severity : Severity) : Settings :=
  { s with overrides := Keyed.put code.name.toList severity s.overrides }

end Settings

end SqlInsight
