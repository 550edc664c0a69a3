/-
Delimited names: taking off one layer of delimiters, and writing the inside of a bracketed name for
a dialect that quotes with another character. Inside delimiters the closing one is written twice.
-/
import SqlInsight.Text.Search

namespace SqlInsight.Name

/-- The words that no dialect takes for a name unless they are quoted. -/
def reserved : List String :=
  ["ADD", "ALL", "ALTER", "AND", "ANY", "AS", "ASC", "BEGIN", "BETWEEN", "BY", "CASE", "CHECK",
    "COLUMN", "CONSTRAINT", "CREATE", "CROSS", "CURRENT", "DATABASE", "DATE", "DEFAULT", "DELETE",
    "DESC", "DISTINCT", "DROP", "ELSE", "END", "EXEC", "EXISTS", "FETCH", "FILTER", "FOR",
    "FOREIGN", "FROM", "FULL", "FUNCTION", "GROUP", "HAVING", "IN", "INDEX", "INNER", "INSERT",
    "INTERVAL", "INTO", "IS", "JOIN", "KEY", "LEFT", "LIKE", "LIMIT", "NOT", "NULL", "OF",
    "OFFSET", "ON", "OR", "ORDER", "OUTER", "OVER", "PARTITION", "PRIMARY", "PROCEDURE", "RANGE",
    "REFERENCES", "RIGHT", "ROW", "ROWS", "SCHEMA", "SELECT", "SET", "TABLE", "THEN", "TIME",
    "TIMESTAMP", "TO", "TOP", "UNION", "UNIQUE", "UPDATE", "USER", "USING", "VALUES", "VIEW",
    "WHEN", "WHERE", "WINDOW", "WITH"]

/-- Whether a name must be quoted to be read back as one name. -/
def needsQuoting : Text → Bool
  | [] => true
  | first :: rest =>
      !(CharClass.isAlphabetic first || first == '_')
        || !rest.all CharClass.isName
        || reserved.any fun word => Text.sameAscii word.toList (first :: rest)

/-- A name between two quotes, with the quotes inside it doubled. -/
def quoted (quote : Char) (name : Text) : Text :=
  quote :: Text.double quote name ++ [quote]

/-- The inside of a bracketed name as another dialect writes it: bare if it can be, else quoted. -/
def render (quote : Char) (inner : Text) : Text :=
  let name := Text.undouble ']' inner
  if needsQuoting name then quoted quote name else name

def delimiters : List (Char × Char) :=
  [('[', ']'), ('"', '"'), ('\x60', '\x60')]

/-- The inside of a text that stands between two delimiters. -/
def inside? (opening closing : Char) : Text → Option Text
  | [] => none
  | first :: rest =>
      if first = opening ∧ rest.getLast? = some closing then some rest.dropLast else none

/-- Take off blanks and one layer of delimiters. -/
def unquote (name : Text) : Text :=
  let name := name.trim
  let inner := delimiters.findSome? fun (opening, closing) =>
    (inside? opening closing name).map (Text.undouble closing)
  inner.getD name

end SqlInsight.Name
