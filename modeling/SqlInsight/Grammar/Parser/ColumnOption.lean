/-
Reading what is said of a column after its type: its collation, the numbers that are generated for
it, and its other options.
-/
import SqlInsight.Grammar.Parser.Constraint

namespace SqlInsight.Grammar

open Reader

variable (g : Level)

/-- Read a number after those words, if they are next; a word that may follow them says nothing. -/
def sequenceNumber (word : String) (filler : Option String) : Reader Unit := do
  if ← keyword word then
    match filler with
    | some word => ignoring (keyword word)
    | none => pure ()
    ignoring (signedNumber g.dialect)

def sequenceBound (word : String) : Reader Unit := do
  if ← keyword word then ignoring (signedNumber g.dialect)
  else ignoring (keywordsIn ["NO", word])

def sequenceOptions : Reader Unit := do
  sequenceNumber g "INCREMENT" (some "BY")
  sequenceBound g "MINVALUE"
  sequenceBound g "MAXVALUE"
  sequenceNumber g "START" (some "WITH")
  sequenceNumber g "CACHE" none
  ignoring (anyOf [["NO", "CYCLE"], ["CYCLE"]])

/-- Read the options of a sequence in parentheses, if a parenthesis is next. -/
def optionalSequence : Reader Unit := do
  if ← atSymbol "(" then inParens (sequenceOptions g)

/-- Read how a column is computed, after `GENERATED`; none if no such form is complete. -/
def generatedColumn : Reader Bool := do
  if ← anyOf [["ALWAYS", "AS", "IDENTITY"], ["BY", "DEFAULT", "AS", "IDENTITY"]] then
    optionalSequence g
    return true
  else if ← keywordsIn ["ALWAYS", "AS"] then
    if ← atSymbol "(" then
      exprInParens g
      if ← keyword "STORED" then return true
      else if g.dialect == .postgres then expected "STORED"
      else
        ignoring (keyword "VIRTUAL")
        return true
    else return false
  else return false

/-- Read the start and the step of the numbers that identify rows, if a parenthesis is next. -/
def identitySteps : Reader Unit := do
  if ← atSymbol "(" then
    inParens do
      ignoring (signedNumber g.dialect)
      expectSymbol ","
      ignoring (signedNumber g.dialect)

/-- Read what a column refers to, after the word. -/
def columnReference : Reader Unit := do
  ignoring objectName
  ignoring (columnList true false)
  referenceActions
  constraintTraits

/-- Read the value that a column has only while a row is inserted, if one is given. -/
def passingValue : Reader Unit := do
  if !((← atSymbol ",") || (← atSymbol ")")) then ignoring (expr g)

/-- Read an option of a column that only the generic dialect knows. -/
def genericColumnOption : Reader Bool := do
  if g.dialect == .generic then
    if (← oneOf ["MATERIALIZED", "ALIAS"]).isSome then ignoring (expr g); return true
    else if ← keyword "EPHEMERAL" then passingValue g; return true
    else return false
  else return false

/-- Read an option of a column whose word is taken even where the dialect does not know it. -/
def lateColumnOption : Reader Bool := do
  let d := g.dialect
  let isOpen := d == .mysql || d == .generic
  if (← keyword "AUTO_INCREMENT") && isOpen then return true
  else if (← keyword "AUTOINCREMENT") && d == .generic then return true
  else if (← keyword "ASC") && d == .generic then return true
  else if (← keyword "DESC") && d == .generic then return true
  else if (← keywordsIn ["ON", "UPDATE"]) && isOpen then ignoring (expr g); return true
  else if ← keyword "GENERATED" then generatedColumn g
  else if d == .generic && (← atKeyword "OPTIONS") then optionsAfter g "OPTIONS"; return true
  else if (← keyword "AS") && isOpen then
    exprInParens g
    ignoring (oneOf ["STORED", "VIRTUAL"])
    return true
  else if (← keyword "IDENTITY") && (d == .mssql || d == .generic) then
    identitySteps g
    return true
  else if ← only (d == .generic) (keywordsIn ["ON", "CONFLICT"]) then
    ignoring (expectOneOf ["ROLLBACK", "ABORT", "FAIL", "IGNORE", "REPLACE"])
    return true
  else return false

def columnOption : Reader Bool := do
  if ← keywordsIn ["CHARACTER", "SET"] then ignoring objectName; return true
  else if ← keywordsIn ["NOT", "NULL"] then return true
  else if ← keyword "COMMENT" then ignoring (singleString "string"); return true
  else if ← keyword "NULL" then return true
  else if ← keyword "DEFAULT" then ignoring (expr g); return true
  else if ← genericColumnOption g then return true
  else if ← anyOf [["PRIMARY", "KEY"], ["UNIQUE"]] then constraintTraits; return true
  else if ← keyword "REFERENCES" then columnReference; return true
  else if ← keyword "CHECK" then exprInParens g; return true
  else lateColumnOption g

/-- Read an option of a column that may have a name of its own, or its collation, if one is next. -/
def namedColumnOption : Reader Bool := do
  if ← keyword "CONSTRAINT" then
    ignoring identifier
    if ← columnOption g then return true
    else expected "constraint details after CONSTRAINT <name>"
  else if ← columnOption g then return true
  else if g.dialect == .mysql || g.dialect == .generic then
    return (← after "COLLATE" objectName).isSome
  else return false

def columnOptions : Reader Unit := do
  ignoring (after "COLLATE" objectName)
  whileFound (namedColumnOption g)

end SqlInsight.Grammar
