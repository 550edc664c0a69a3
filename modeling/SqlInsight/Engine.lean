/-
What all questions about a text share: a parser and the settings.
-/
import SqlInsight.Reading

namespace SqlInsight

/-- A parser and the settings under which it is used. -/
structure Engine where
  parser : Parser
  settings : Settings

/-- The ways in which texts are read. -/
def Engine.ladder (e : Engine) : Ladder :=
  Ladder.ofSettings e.parser e.settings

end SqlInsight
