/-
How tightly operators bind. The numbers matter only by their order, which is one of its own in the
dialect of PostgreSQL.
-/
import SqlInsight.Grammar.Parser.Basic

namespace SqlInsight.Grammar

open Reader

/-- The classes of operators, by how tightly they bind. -/
inductive Binding where
  | cast
  | atTimeZone
  | product
  | sum
  | xor
  | ampersand
  | caret
  | pipe
  | between
  | comparison
  | like
  | is
  | custom
  | not
  | and
  | or
deriving Repr, DecidableEq

def Binding.strength (d : Dialect) (b : Binding) : Nat :=
  match d == .postgres, b with
  | true, .cast => 140
  | true, .atTimeZone => 110
  | true, .product => 90
  | true, .sum => 80
  | true, .xor => 75
  | true, .ampersand => 70
  | true, .caret => 100
  | true, .pipe => 70
  | true, .between => 60
  | true, .comparison => 50
  | true, .like => 60
  | true, .is => 40
  | true, .custom => 70
  | true, .not => 30
  | true, .and => 20
  | true, .or => 10
  | false, .cast => 50
  | false, .atTimeZone => 41
  | false, .product => 40
  | false, .sum => 30
  | false, .xor => 24
  | false, .ampersand => 23
  | false, .caret => 22
  | false, .pipe => 21
  | false, .between => 20
  | false, .comparison => 20
  | false, .like => 19
  | false, .is => 17
  | false, .custom => 16
  | false, .not => 15
  | false, .and => 10
  | false, .or => 5

/-- The class of a symbol that stands between two operands. -/
def symbolBinding? (s : String) : Option Binding :=
  if ["=", "<", "<=", "<>", ">", ">=", "==", "~", "~*", "!~", "!~*", "~~", "~~*", "!~~", "!~~*",
      "<=>"].contains s then some .comparison
  else if s == "|" then some .pipe
  else if ["^", "#", ">>", "<<"].contains s then some .caret
  else if s == "&" then some .ampersand
  else if s == "+" || s == "-" then some .sum
  else if ["*", "/", "//", "%", "||"].contains s then some .product
  else if ["::", "!", "[", "&&", "^@"].contains s then some .cast
  else if ["->", "->>", "#>", "#>>", "@>", "<@", "#-", "@?", "@@", "?", "?&", "?|"].contains s then
    some .custom
  else none

/-- The strength of a symbol in a dialect; zero if it is no operator. -/
def symbolStrength (d : Dialect) (s : String) : Nat :=
  if d == .postgres && s == "[" then 130
  else if d == .postgres && ["!", "&&", "^@", "||", "#", ">>", "<<"].contains s then 70
  else
    match symbolBinding? s with
    | some b => b.strength d
    | none => 0

/-- The class of a keyword that stands between two operands, given the two words after it. -/
def keywordBinding? (word second third : String) : Option Binding :=
  match word with
  | "OR" => some .or
  | "AND" => some .and
  | "XOR" => some .xor
  | "AT" => if second == "TIME" && third == "ZONE" then some .atTimeZone else none
  | "NOT" =>
      if second == "IN" || second == "BETWEEN" then some .between
      else if ["LIKE", "ILIKE", "RLIKE", "REGEXP", "SIMILAR"].contains second then some .like
      else none
  | "IS" => some .is
  | "IN" | "BETWEEN" | "OPERATOR" => some .between
  | "LIKE" | "ILIKE" | "SIMILAR" | "RLIKE" | "REGEXP" => some .like
  | "DIV" => some .product
  | _ => none

/-- The strength of the next token as an operator; zero if it is none. -/
def nextStrength (d : Dialect) : Reader Nat := do
  match ← peek with
  | .word _ _ word =>
      if d == .postgres && word == "COLLATE" then return 120
      else
        let second := (← peekAt 1).keyword
        let third := (← peekAt 2).keyword
        match keywordBinding? word second third with
        | some b => return b.strength d
        | none => return 0
  | .symbol s => return symbolStrength d s
  | .customOperator _ => return Binding.custom.strength d
  | _ => return 0

/-- The operator that a symbol is in a dialect, as an error message shows it. -/
def symbolOperator? (d : Dialect) (s : String) : Option String :=
  if s == "==" then some "="
  else if ["<=>", "=", "<>", ">", ">=", "<", "<=", "+", "-", "*", "%", "||", "|", "^", "&", "/",
      "~", "~*", "!~", "!~*", "~~", "~~*", "!~~", "!~~*", "->", "->>", "#>", "#>>", "@>", "<@",
      "#-", "@?", "@@", "?", "?&", "?|"].contains s then some s
  else if s == "//" && d == .generic then some s
  else if ["<<", ">>", "&&", "^@"].contains s && (d == .postgres || d == .generic) then some s
  else if s == "#" && d == .postgres then some s
  else none

/-- The name of a symbol that no operand may follow, in the message that says so. -/
def symbolName (s : String) : String :=
  match s with
  | "!" => "ExclamationMark"
  | "<<" => "ShiftLeft"
  | ">>" => "ShiftRight"
  | "#" => "Sharp"
  | "&&" => "Overlap"
  | "^@" => "CaretAt"
  | "//" => "DuckIntDiv"
  | "[" => "LBracket"
  | s => s

/-- A token in the message that says that nothing joins operands by it. -/
def tokenName : Token → String
  | .word value _ word =>
      "Word(Word \x7b value: \"" ++ value ++ "\", quote_style: None, keyword: " ++ word ++ " \x7d)"
  | .symbol s => symbolName s
  | t => t.render

end SqlInsight.Grammar
