/-
What reads the texts that the engine is given: the parser of the four dialects, and the readers of
settings and schema snapshots.
-/
import SqlInsight.Grammar.Parser
import SqlInsight.Json.Reader
import SqlInsight.Outline.OfSyntax
import SqlInsight.Project
import SqlInsight.Reading
import SqlInsight.Toml.Reader

namespace SqlInsight

/-- Read the statements of a text by the grammar of a dialect. -/
def standardParser : Parser := fun d t =>
  (Grammar.parse d t).map fun statements => statements.map Outline.ofStatement

/-- Read TOML documents and JSON texts as they are defined. -/
def standardReaders : Readers :=
  ⟨Toml.ofText?, Json.ofText?⟩

end SqlInsight
