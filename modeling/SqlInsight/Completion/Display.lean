/-
What belongs at a cursor as it is shown to someone who looks for mistakes: the kind, and the parts
with their names.
-/
import SqlInsight.Completion.Context
import SqlInsight.Text.Quoted

namespace SqlInsight.Completion

def withParts (kind : String) (parts : List (String × Text)) : Text :=
  let shown := parts.map fun part => part.1.toList ++ ": ".toList ++ part.2
  kind.toList ++ " \x7b ".toList ++ List.intercalate ", ".toList shown ++ " \x7d".toList

def quoted? : Option Text → Text
  | none => "None".toList
  | some t => "Some(".toList ++ t.quoted ++ [')']

/-- What belongs at a cursor, with all its parts. -/
def Context.text : Context → Text
  | .keyword => "Keyword".toList
  | .table after => withParts "Table" [("last_keyword", after.quoted)]
  | .column after inCte =>
      withParts "Column"
        [("last_keyword", quoted? after), ("in_cte", (if inCte then "true" else "false").toList)]
  | .aliasColumn name => withParts "AliasColumn" [("alias", name.quoted)]
  | .schema owner typed =>
      withParts "Schema" [("schema", owner.quoted), ("partial", typed.quoted)]
  | .routine after => withParts "Routine" [("last_keyword", after.quoted)]
  | .database => "Database".toList
  | .updateColumn target => withParts "UpdateColumn" [("target_table", quoted? target)]
  | .insertColumn target => withParts "InsertColumn" [("target_table", quoted? target)]

end SqlInsight.Completion
