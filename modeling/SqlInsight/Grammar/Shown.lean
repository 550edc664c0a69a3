/-
How names and lists are shown in messages.
-/
import SqlInsight.Grammar.Tree

namespace SqlInsight.Grammar

/-- A text between quotes as it is shown: a quote that is neither doubled nor after a backslash is
written twice. -/
def escapeQuotes (quote : Char) : (previous : Option Char) → List Char → List Char
  | _, [] => []
  | previous, [c] =>
      if c = quote && previous != some '\\' then [c, c] else [c]
  | previous, c :: e :: rest =>
      if c = quote then
        if previous == some '\\' then c :: escapeQuotes quote previous (e :: rest)
        else if e = quote then c :: e :: escapeQuotes quote (some c) rest
        else c :: c :: escapeQuotes quote (some c) (e :: rest)
      else c :: escapeQuotes quote (some c) (e :: rest)

def inQuotes (quote : Char) (text : String) : String :=
  String.ofList (quote :: escapeQuotes quote none text.toList ++ [quote])

def Ident.render (name : Ident) : String :=
  match name.quote with
  | none => name.value
  | some '[' => "[" ++ name.value ++ "]"
  | some q => inQuotes q name.value

def ObjectName.render (name : ObjectName) : String :=
  String.intercalate "." (name.map Ident.render)

def shownList (word : String) (items : List String) : String :=
  word ++ "(" ++ String.intercalate ", " items ++ ")"

end SqlInsight.Grammar
