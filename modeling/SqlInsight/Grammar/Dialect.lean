/-
The SQL dialects that texts are read in, and the lexical and grammatical habits that set them apart.
-/
import SqlInsight.Text.CharClass

namespace SqlInsight

/-- The dialects a text can be read in. -/
inductive Dialect where
  | mssql
  | mysql
  | postgres
  | generic
deriving Repr, DecidableEq, Inhabited

namespace Dialect

def name : Dialect → String
  | .mssql => "mssql"
  | .mysql => "mysql"
  | .postgres => "postgres"
  | .generic => "generic"

def ofName? (s : String) : Option Dialect :=
  [mssql, mysql, postgres, generic].find? fun d => d.name == s

theorem ofName?_name (d : Dialect) : ofName? d.name = some d := by
  cases d <;> decide

def nameQuote : Dialect → Char
  | .mysql => '\x60'
  | _ => '"'

def opensName (d : Dialect) (c : Char) : Bool :=
  match d with
  | .mssql => c == '"' || c == '['
  | .mysql => c == '\x60'
  | .postgres => c == '"'
  | .generic => c == '"' || c == '\x60'

def beginsWord (d : Dialect) (c : Char) : Bool :=
  CharClass.isAlphabetic c || c == '_'
    || match d with
      | .mssql | .generic => c == '#' || c == '@'
      | .mysql => c == '$' || c == '@' || (0x80 ≤ c.toNat && c.toNat ≤ 0xffff)
      | .postgres => false

def continuesWord (d : Dialect) (c : Char) : Bool :=
  c.isDigit || beginsWord d c
    || match d with
      | .mssql | .generic | .postgres => c == '$'
      | .mysql => false

/-- Whether a backslash escapes the next character of a string. -/
def hasBackslashEscapes (d : Dialect) : Bool :=
  d == .mysql

def hasEscapedStrings (d : Dialect) : Bool :=
  d == .postgres || d == .generic

/-- Whether strings may give characters by their code points. -/
def hasUnicodeStrings (d : Dialect) : Bool :=
  d == .postgres || d == .generic

/-- Whether operators are the longest run of operator characters. -/
def isOperatorPart (d : Dialect) (c : Char) : Bool :=
  d == .postgres && "+-*/<>=~!@#%^&|\x60?".toList.contains c

def hasBooleanLiterals (d : Dialect) : Bool :=
  d != .mssql

end Dialect

end SqlInsight
