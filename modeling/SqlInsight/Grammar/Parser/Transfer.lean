/-
Reading the statements that move rows between tables and files, and that bring other databases and
extensions in. Nothing of them is kept.
-/
import SqlInsight.Grammar.Parser.Constraint

namespace SqlInsight.Grammar

open Reader

variable (g : Level)

def copyOption : Reader Unit := do
  let d := g.dialect
  let words :=
    ["FORMAT", "FREEZE", "DELIMITER", "NULL", "HEADER", "QUOTE", "ESCAPE", "FORCE_QUOTE",
      "FORCE_NOT_NULL", "FORCE_NULL", "ENCODING"]
  match ← oneOf words with
  | some "FORMAT" => ignoring identifier
  | some "FREEZE" | some "HEADER" => ignoring (oneOf ["TRUE", "FALSE"])
  | some "DELIMITER" | some "QUOTE" | some "ESCAPE" => charLiteral d
  | some "NULL" | some "ENCODING" => ignoring (stringText d)
  | some _ => ignoring (columnList false false)
  | none => expected "option"

/-- Read an option of a copy of separated values, of those that stand outside parentheses. -/
def plainCsvOption : Reader Unit := do
  match ← oneOf ["HEADER", "QUOTE", "ESCAPE", "FORCE"] with
  | some "HEADER" => return ()
  | some "FORCE" =>
      if ← anyOf [["NOT", "NULL"], ["QUOTE"]] then ignoring identifiers
      else expected "csv option"
  | some _ =>
      ignoring (keyword "AS")
      charLiteral g.dialect
  | none => expected "csv option"

/-- Read an option of a copy that stands outside parentheses. -/
def plainCopyOption : Reader Unit := do
  match ← oneOf ["BINARY", "DELIMITER", "NULL", "CSV"] with
  | some "BINARY" => return ()
  | some "DELIMITER" =>
      ignoring (keyword "AS")
      charLiteral g.dialect
  | some "NULL" =>
      ignoring (keyword "AS")
      ignoring (stringText g.dialect)
  | some _ => ignoring (manyOf (attempt (plainCsvOption g)))
  | none => expected "option"

/-- Drop the rows that follow a copy in the text, up to a backslash and a period. -/
def skipRows : (fuel : Nat) → Reader Unit
  | 0 => return ()
  | fuel + 1 => do
      match ← peek with
      | .endOfText => return ()
      | .symbol "\\" =>
          skip
          if !(← symbol ".") then
            skip
            skipRows fuel
      | _ =>
          skip
          skipRows fuel

def copySource : Reader Bool := do
  if ← atSymbol "(" then
    ignoring (queryInParens g)
    return true
  else
    ignoring objectName
    ignoring (columnList true false)
    return false

/-- Read a copy of rows after its word. -/
def copyStatement : Reader Unit := do
  let isQuery ← copySource g
  let direction ← oneOf ["FROM", "TO"]
  if direction.isNone then expected "FROM or TO"
  if direction == some "FROM" && isQuery then
    fail "COPY ... FROM does not support query as a source"
  let stream ← oneOf ["STDIN", "STDOUT", "PROGRAM"]
  if stream.isNone || stream == some "PROGRAM" then ignoring (stringText g.dialect)
  ignoring (keyword "WITH")
  if ← atSymbol "(" then ignoring (listInParens (copyOption g))
  ignoring (manyOf (attempt (plainCopyOption g)))
  if stream == some "STDIN" then
    expectSymbol ";"
    skipRows ((← get).length + 1)

/-- Read the unloading of rows after its word. -/
def unloadStatement : Reader Unit := do
  ignoring (queryInParens g)
  expectKeyword "TO"
  ignoring identifier
  optionsAfter g "WITH"

/-- Read the attaching of a database after its word. -/
def attachStatement : Reader Unit := do
  ignoring (keyword "DATABASE")
  ignoring (expr g)
  expectKeyword "AS"
  ignoring identifier

/-- Read the detaching of a database after its word. -/
def detachStatement : Reader Unit := do
  ignoring (keyword "DATABASE")
  ignoring ifExists
  ignoring identifier

/-- Read the loading of an extension after its word. -/
def loadStatement : Reader Unit := do
  if g.dialect == .postgres || g.dialect == .generic then ignoring identifier
  else
    ignoring (keyword "DATA")
    expected "\x60DATA\x60 or an extension name after \x60LOAD\x60"

end SqlInsight.Grammar
