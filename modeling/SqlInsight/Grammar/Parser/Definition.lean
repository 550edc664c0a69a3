/-
Reading the statements that define objects. Nothing of them is kept.
-/
import SqlInsight.Grammar.Parser.Role
import SqlInsight.Grammar.Parser.Routine
import SqlInsight.Grammar.Parser.Table

namespace SqlInsight.Grammar

open Reader

variable (g : Level)

def viewColumn : Reader Unit := do
  ignoring identifier
  if g.dialect == .generic then
    if ← atKeyword "OPTIONS" then optionsAfter g "OPTIONS"
    else ignoring (after "COMMENT" (singleString "string"))

/-- Read what only the generic dialect says of a view before its query. -/
def viewExtras : Reader Unit := do
  if g.dialect == .generic then
    optionsAfter g "OPTIONS"
    ignoring (after "TO" objectName)
    if ← keyword "COMMENT" then
      expectSymbol "="
      ignoring (singleString "string literal")

def createView : Reader Unit := do
  if g.dialect == .generic then ignoring ifNotExists
  ignoring objectName
  if ← symbol "(" then
    ignoring (listUpTo ")" (viewColumn g))
    expectSymbol ")"
  optionsAfter g "WITH"
  if ← keyword "CLUSTER" then
    expectKeyword "BY"
    ignoring (columnList true false)
  viewExtras g
  expectKeyword "AS"
  ignoring g.query
  if g.dialect == .generic then ignoring (keywordsIn ["WITH", "NO", "SCHEMA", "BINDING"])

def createIndex : Reader Unit := do
  ignoring (keyword "CONCURRENTLY")
  let isNamed ← ifNotExists
  if !(← only (!isNamed) (keyword "ON")) then
    ignoring objectName
    expectKeyword "ON"
  ignoring objectName
  ignoring (after "USING" identifier)
  ignoring (listInParens (orderItem g))
  ignoring (after "INCLUDE" (inParens identifiers))
  if ← keyword "NULLS" then
    ignoring (keyword "NOT")
    expectKeyword "DISTINCT"
  if g.dialect == .postgres || g.dialect == .generic then
    ignoring (after "WITH" (exprsInParens g))
  ignoring (after "WHERE" (expr g))

def createSchema : Reader Unit := do
  ignoring ifNotExists
  if ← keyword "AUTHORIZATION" then ignoring identifier
  else
    ignoring objectName
    ignoring (after "AUTHORIZATION" identifier)

def databasePlace : Reader Bool := do
  if (← oneOf ["LOCATION", "MANAGEDLOCATION"]).isSome then
    ignoring (stringText g.dialect)
    return true
  else return false

def createDatabase : Reader Unit := do
  ignoring ifNotExists
  ignoring objectName
  whileFound (databasePlace g)

def createSequence : Reader Unit := do
  ignoring ifNotExists
  ignoring objectName
  ignoring (after "AS" (typeName g))
  sequenceOptions g
  if ← keywordsIn ["OWNED", "BY"] then
    if !(← keyword "NONE") then ignoring objectName

/-- Read the attributes of a type after the parenthesis; a comma may end them. -/
def typeAttributes : (fuel : Nat) → Reader Unit
  | 0 => refuse .tooDeep
  | fuel + 1 => do
      ignoring identifier
      ignoring (typeName g)
      ignoring (after "COLLATE" objectName)
      let comma ← symbol ","
      if ← symbol ")" then return ()
      else if comma then typeAttributes fuel
      else expected "',' or ')' after attribute definition"

def createType : Reader Unit := do
  ignoring objectName
  expectKeyword "AS"
  if ← symbol "(" then
    if !(← symbol ")") then typeAttributes g ((← get).length + 1)

def enumHead : Reader Unit := do
  expectKeywords ["CREATE", "TYPE"]
  ignoring objectName
  expectKeywords ["AS", "ENUM"]

def enumMembers : Reader Unit := do
  if !(← symbol "(") then expected "'(' after CREATE TYPE AS ENUM"
  ignoring (listUpTo ")" identifier)
  expectSymbol ")"

def createExtension : Reader Unit := do
  ignoring ifNotExists
  ignoring identifier
  if ← keyword "WITH" then
    ignoring (after "SCHEMA" identifier)
    ignoring (after "VERSION" identifier)
    ignoring (keyword "CASCADE")

/-- Read the name of a secret and the storage that it is kept in, as far as they are given. What
stands in the place of a name is taken even if it is none. -/
def secretName : Reader Unit := do
  if !(← atSymbol "(") then
    let hasStorage ←
      if ← keyword "IN" then (fun name => name.isSome) <$> tolerate identifier
      else do
        ignoring (tolerate identifier)
        pure false
    if !hasStorage then
      if !(← atSymbol "(") then ignoring (after "IN" (tolerate identifier))

def createSecret : Reader Unit := do
  ignoring ifNotExists
  secretName
  inParens do
    expectKeyword "TYPE"
    ignoring identifier
    if ← symbol "," then
      ignoring <| commaList do
        ignoring identifier
        ignoring identifier

/-- Read the definition of an object that cannot be replaced. -/
def createFixed : Reader Unit := do
  if ← keyword "EXTENSION" then createExtension
  else if ← keyword "INDEX" then createIndex g
  else if ← keywordsIn ["UNIQUE", "INDEX"] then createIndex g
  else if ← keyword "VIRTUAL" then createVirtualTable
  else if ← keyword "SCHEMA" then createSchema
  else if ← keyword "DATABASE" then createDatabase g
  else if ← keyword "ROLE" then createRole g
  else if ← keyword "SEQUENCE" then createSequence g
  else if ← keyword "TYPE" then createType g
  else if ← keyword "PROCEDURE" then createProcedure g
  else expected "an object type after CREATE"

def createStatement : Reader Unit := do
  let replaces ← keywordsIn ["OR", "REPLACE"]
  ignoring (keywordsIn ["OR", "ALTER"])
  ignoring (keyword "LOCAL")
  ignoring (keyword "GLOBAL")
  ignoring (keyword "TRANSIENT")
  ignoring (oneOf ["TEMP", "TEMPORARY"])
  if ← keyword "TABLE" then createTable g
  else if ← keyword "MATERIALIZED" then
    expectKeyword "VIEW"
    createView g
  else if ← keyword "VIEW" then createView g
  else if ← keyword "POLICY" then createPolicy g
  else if ← keyword "EXTERNAL" then createExternalTable g
  else if ← atKeyword "FUNCTION" then createFunction g
  else if ← atKeyword "TRIGGER" then createTrigger g
  else if ← atKeywords ["CONSTRAINT", "TRIGGER"] then skip; createTrigger g
  else if ← atKeyword "MACRO" then createMacro g
  else if ← keyword "SECRET" then createSecret
  else if replaces then
    expected "[EXTERNAL] TABLE or [MATERIALIZED] VIEW or FUNCTION after CREATE OR REPLACE"
  else createFixed g

end SqlInsight.Grammar
