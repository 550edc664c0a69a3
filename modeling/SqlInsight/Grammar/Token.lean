/-
The tokens of a SQL text. A token is shown in error messages as it would be written.
-/
import SqlInsight.Text.CaseFold

namespace SqlInsight.Grammar

inductive LiteralKind where
  | single
  | double
  | national
  | escaped
  | unicode
  | hex
  | singleBytes
  | doubleBytes
  | singleRaw
  | doubleRaw
  | tripleSingleRaw
  | tripleDoubleRaw
  | dollar (tag : String)
deriving Repr, DecidableEq

/-- A token. A word carries its upper-case form, by which keywords are recognised; it is empty for
a quoted word. -/
inductive Token where
  | word (value : String) (quote : Option Char) (keyword : String)
  | number (digits : String)
  | literal (kind : LiteralKind) (value : String)
  | placeholder (value : String)
  | symbol (text : String)
  | customOperator (text : String)
  | other (c : Char)
  | endOfText
deriving Repr, DecidableEq

/-- The character that ends a name opened by this one. -/
def closingQuote (c : Char) : Char :=
  if c = '[' then ']' else c

namespace Token

def bare (value : Text) : Token :=
  .word (String.ofList value) none (String.ofList (Text.upper value))

def quoted (quote : Char) (value : Text) : Token :=
  .word (String.ofList value) (some quote) ""

/-- The keyword a token may be; empty if it is none. -/
def keyword : Token → String
  | .word _ _ k => k
  | _ => ""

def isSymbol (t : Token) (text : String) : Bool :=
  match t with
  | .symbol s => s == text
  | _ => false

/-- A token as an error message shows it. -/
def render : Token → String
  | .word value none _ => value
  | .word value (some q) _ => String.ofList (q :: value.toList ++ [closingQuote q])
  | .number digits => digits
  | .literal kind value =>
      match kind with
      | .single => "'" ++ value ++ "'"
      | .double => "\"" ++ value ++ "\""
      | .national => "N'" ++ value ++ "'"
      | .escaped => "E'" ++ value ++ "'"
      | .unicode => "U&'" ++ value ++ "'"
      | .hex => "X'" ++ value ++ "'"
      | .singleBytes => "B'" ++ value ++ "'"
      | .doubleBytes => "B\"" ++ value ++ "\""
      | .singleRaw => "R'" ++ value ++ "'"
      | .doubleRaw => "R\"" ++ value ++ "\""
      | .tripleSingleRaw => "R'''" ++ value ++ "'''"
      | .tripleDoubleRaw => "R\"\"\"" ++ value ++ "\"\"\""
      | .dollar tag => "$" ++ tag ++ "$" ++ value ++ "$" ++ tag ++ "$"
  | .placeholder value => value
  | .symbol text => text
  | .customOperator text => text
  | .other c => String.ofList [c]
  | .endOfText => "EOF"

end Token

end SqlInsight.Grammar
