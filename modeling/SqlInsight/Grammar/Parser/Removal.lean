/-
Reading the statements that remove objects, or all rows of tables. Nothing of them is kept.
-/
import SqlInsight.Grammar.Parser.Routine

namespace SqlInsight.Grammar

open Reader

variable (g : Level)

/-- Read what happens to the objects that depend on a removed one, if that is said. -/
def dropBehavior : Reader Unit :=
  ignoring (oneOf ["CASCADE", "RESTRICT"])

def dropObjects (kind : String) : Reader Unit := do
  ignoring ifExists
  ignoring (commaList objectName)
  let start ← place
  let cascade ← keyword "CASCADE"
  let restrict ← keyword "RESTRICT"
  let purge ← keyword "PURGE"
  if cascade && restrict then failAt "Cannot specify both CASCADE and RESTRICT in DROP" start
  else if kind == "ROLE" && (cascade || restrict || purge) then
    failAt "Cannot specify CASCADE, RESTRICT, or PURGE in DROP ROLE" start

/-- Read the removal of functions or procedures after its word. -/
def dropRoutines : Reader Unit := do
  ignoring ifExists
  ignoring (commaList (functionDescription g))
  dropBehavior

def dropPolicy : Reader Unit := do
  ignoring ifExists
  ignoring identifier
  expectKeyword "ON"
  ignoring objectName
  dropBehavior

def dropSecret : Reader Unit := do
  ignoring ifExists
  ignoring identifier
  ignoring (after "FROM" (tolerate identifier))

def dropTrigger : Reader Unit := do
  if hasTriggers g.dialect then
    skip
    ignoring ifExists
    ignoring objectName
    expectKeyword "ON"
    ignoring objectName
    dropBehavior
  else expected "an object type after DROP"

def dropStatement : Reader Unit := do
  if g.dialect == .mysql || g.dialect == .generic then ignoring (keyword "TEMPORARY")
  let kinds :=
    ["TABLE", "VIEW", "INDEX", "ROLE", "SCHEMA", "DATABASE", "SEQUENCE", "STAGE", "TYPE"]
  match ← oneOf kinds with
  | some kind => dropObjects kind
  | none =>
      if (← oneOf ["FUNCTION", "PROCEDURE"]).isSome then dropRoutines g
      else if ← keyword "POLICY" then dropPolicy
      else if ← keyword "SECRET" then dropSecret
      else if ← atKeyword "TRIGGER" then dropTrigger g
      else
        expected <|
          "TABLE, VIEW, INDEX, ROLE, SCHEMA, DATABASE, FUNCTION, PROCEDURE, STAGE, TRIGGER, "
            ++ "SECRET, SEQUENCE, or TYPE after DROP"

/-- Read the removal of all rows after its word. -/
def truncateStatement : Reader Unit := do
  ignoring (keyword "TABLE")
  ignoring (keyword "ONLY")
  ignoring (commaList objectName)
  ignoring (after "PARTITION" (exprsInParens g))
  if g.dialect == .postgres || g.dialect == .generic then
    ignoring (anyOf [["RESTART", "IDENTITY"], ["CONTINUE", "IDENTITY"]])
    dropBehavior
  onCluster

end SqlInsight.Grammar
