/-
Writing TOML documents: the values of a table on lines of their own, and the tables in it behind
these, each under a header. A string and a key have the plainest form that needs no escapes: between
double quotes, between single quotes, and over several lines in the same order; else with escapes.
-/
import SqlInsight.Toml.Reader

namespace SqlInsight.Toml

/-- The length of the longest run of a character in a text, when the text follows `current` of
them. -/
def longestRun (quote : Char) (current : Nat) : Text → Nat
  | [] => current
  | c :: rest =>
      if c = quote then longestRun quote (current + 1) rest
      else max current (longestRun quote 0 rest)

/-- Whether a text has a control character that only an escape can write. -/
def needsEscapes (t : Text) : Bool :=
  t.any fun c => !isPlain c && c != '\n'

def upperHexDigit (n : Nat) : Char :=
  if n < 10 then Char.ofNat (48 + n) else Char.ofNat (55 + n)

/-- One character between double quotes; in a string of several lines a line feed stands for
itself. -/
def escapeChar (severalLines : Bool) (c : Char) : Text :=
  match c with
  | '\x08' => ['\\', 'b']
  | '\t' => ['\\', 't']
  | '\n' => if severalLines then ['\n'] else ['\\', 'n']
  | '\x0c' => ['\\', 'f']
  | '\r' => ['\\', 'r']
  | '"' => ['\\', '"']
  | '\\' => ['\\', '\\']
  | c =>
      if isPlain c then [c]
      else ['\\', 'u', '0', '0', upperHexDigit (c.toNat / 16), upperHexDigit (c.toNat % 16)]

/-- The inside of a string of several lines between double quotes; of three quotes in a row the last
one is escaped. -/
def escapeLines (quotes : Nat) : Text → Text
  | [] => []
  | c :: rest =>
      if c = '"' ∧ quotes < 2 then '"' :: escapeLines (quotes + 1) rest
      else escapeChar true c ++ escapeLines 0 rest

/-- A string on one line between double quotes. -/
def basicString (t : Text) : Text :=
  '"' :: t.flatMap (escapeChar false) ++ ['"']

/-- A line feed after opening quotes, if the string has several lines. -/
def openingBreak (t : Text) : Text :=
  if t.contains ['\n'] then ['\n'] else []

/-- A string over several lines between double quotes. -/
def basicLines (t : Text) : Text :=
  "\"\"\"".toList ++ openingBreak t ++ escapeLines 0 t ++ "\"\"\"".toList

/-- A string over several lines between single quotes. -/
def literalLines (t : Text) : Text :=
  "'''".toList ++ openingBreak t ++ t ++ "'''".toList

def printString (t : Text) : Text :=
  let hasBreak := t.contains ['\n']
  let double := longestRun '"' 0 t
  let single := longestRun '\'' 0 t
  let escapes := needsEscapes t
  let plain := !escapes && !t.contains ['\\']
  if plain && double = 0 && !hasBreak then basicString t
  else if !escapes && single = 0 && !hasBreak then '\'' :: t ++ ['\'']
  else if plain && double < 3 then basicLines t
  else if !escapes && single < 3 then literalLines t
  else if hasBreak then basicLines t
  else basicString t

def printKey (t : Text) : Text :=
  let escapes := needsEscapes t || t.contains ['\n']
  if !t.isEmpty && t.all isBare then t
  else if !escapes && !t.contains ['\\'] && !t.contains ['"'] then basicString t
  else if !escapes && !t.contains ['\''] then '\'' :: t ++ ['\'']
  else basicString t

/-- An array of strings; if it has several they stand on lines of their own. -/
def printStrings (items : List Text) : Text :=
  match items with
  | [] => "[]".toList
  | [item] => '[' :: printString item ++ [']']
  | several =>
      "[\n".toList
        ++ (several.flatMap fun item => "    ".toList ++ printString item ++ ",\n".toList) ++ [']']

def printLine (key : Text) (value : Text) : Text :=
  printKey key ++ " = ".toList ++ value ++ ['\n']

/-- A value behind its key. A number has to fit 64 bits with a sign; of the arrays only those of
strings are written. -/
def printValue? : Toml → Option Text
  | .string t => some (printString t)
  | .integer n => (ofInt64? n).map fun _ => (toString n).toList
  | .boolean b => some (if b then "true" else "false").toList
  | .real literal | .moment literal => some literal
  | .array items => (items.mapM string?).map printStrings
  | .table _ => none

/-- The lines of a table but for the tables in it. -/
def valueLines? : List (Text × Toml) → Option Text
  | [] => some []
  | (key, value) :: rest =>
      if value.isTable then valueLines? rest
      else do
        let text ← printValue? value
        let later ← valueLines? rest
        return printLine key text ++ later

/-- The header of a table, with an empty line before it. -/
def printHeader (path : List Text) : Text :=
  "\n[".toList ++ List.intercalate ['.'] (path.map printKey) ++ "]\n".toList

/-- Whether a table has a header of its own: one with nothing but tables in it has none. -/
def hasHeader (members : List (Text × Toml)) : Bool :=
  members.isEmpty || members.any fun m => !m.2.isTable

def tableLines? (path : List Text) : List (Text × Toml) → Option Text
  | [] => some []
  | (key, .table members) :: rest => do
      let own := path ++ [key]
      let values ← valueLines? members
      let tables ← tableLines? own members
      let later ← tableLines? path rest
      return (if hasHeader members then printHeader own else []) ++ values ++ tables ++ later
  | _ :: rest => tableLines? path rest

/-- The text of a document. No empty line stands before its first header if that is its first
line. -/
def print? (members : List (Text × Toml)) : Option Text := do
  let values ← valueLines? members
  let tables ← tableLines? [] members
  return if values.isEmpty then tables.drop 1 else values ++ tables

end SqlInsight.Toml
