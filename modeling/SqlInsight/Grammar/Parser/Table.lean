/-
Reading the definitions of tables: their columns among their constraints, how their rows are laid
out and stored, and the query that may fill them.
-/
import SqlInsight.Grammar.Parser.Query
import SqlInsight.Grammar.Parser.TypeName

namespace SqlInsight.Grammar

open Reader

variable (g : Level)

def columnDefinition : Reader Unit := do
  ignoring identifier
  ignoring (typeName g)
  columnOptions g

/-- Read the columns and the constraints of a table after the parenthesis. -/
def tableElements : (fuel : Nat) → Reader Unit
  | 0 => refuse .tooDeep
  | fuel + 1 => do
      if !(← tableConstraint g) then
        match ← peek with
        | .word _ _ _ => columnDefinition g
        | _ => expected "column name or constraint definition"
      if ← symbol "," then tableElements fuel
      else if ← symbol ")" then return ()
      else expected "',' or ')' after column definition"

/-- Read the columns and the constraints of a table, if a parenthesis is next. -/
def tableColumns : Reader Unit := do
  if ← symbol "(" then
    if !(← symbol ")") then tableElements g ((← get).length + 1)

/-- Read a name after those words; whether they were next. -/
def delimiterAfter (words : List String) : Reader Bool := do
  return (← afterAll words identifier).isSome

/-- Read what separates the parts of a stored row, if that is next. A word that begins none is taken
with nothing after it. -/
def rowDelimiter : Reader Bool := do
  match ← oneOf ["FIELDS", "COLLECTION", "MAP", "LINES", "NULL"] with
  | some "FIELDS" =>
      if ← delimiterAfter ["TERMINATED", "BY"] then
        ignoring (delimiterAfter ["ESCAPED", "BY"])
        return true
      else return false
  | some "COLLECTION" => delimiterAfter ["ITEMS", "TERMINATED", "BY"]
  | some "MAP" => delimiterAfter ["KEYS", "TERMINATED", "BY"]
  | some "LINES" => delimiterAfter ["TERMINATED", "BY"]
  | some _ => delimiterAfter ["DEFINED", "AS"]
  | none => return false

/-- Read the format of stored rows after its word. -/
def rowFormat : Reader Unit := do
  expectKeyword "FORMAT"
  if ← keyword "SERDE" then ignoring (stringText g.dialect)
  else
    ignoring (keyword "DELIMITED")
    whileFound rowDelimiter

def storedFormat : Reader Unit := do
  expectKeyword "AS"
  if ← keyword "INPUTFORMAT" then
    ignoring (expr g)
    expectKeyword "OUTPUTFORMAT"
    ignoring (expr g)
  else fileFormat

/-- Read how and where the rows of a table are stored, if that is next. -/
def storageFormat : Reader Bool := do
  if ← keyword "ROW" then rowFormat g; return true
  else if ← keyword "STORED" then storedFormat g; return true
  else if ← keyword "LOCATION" then ignoring (stringText g.dialect); return true
  else optionsAfterAll g ["WITH", "SERDEPROPERTIES"]

/-- Read the columns that the rows of a table are spread by, if that is next. -/
def partitionColumns : Reader Unit :=
  ignoring (afterAll ["PARTITIONED", "BY"] (listInParens (columnDefinition g)))

/-- Read the buckets that the rows of a table are put into, if that is next. -/
def buckets : Reader Unit := do
  if g.dialect == .generic then
    if ← keywordsIn ["CLUSTERED", "BY"] then
      ignoring (columnList false false)
      ignoring (afterAll ["SORTED", "BY"] (listInParens (orderItem g)))
      expectKeyword "INTO"
      ignoring (numberValue g.dialect)
      expectKeyword "BUCKETS"

def anyWord : Reader Unit := do
  match ← peek with
  | .word _ _ _ => skip
  | _ => wrongNext "identifier"

def tableEngine : Reader Unit := do
  if ← keyword "ENGINE" then
    expectSymbol "="
    anyWord
    if ← atSymbol "(" then ignoring (inParens identifiers)

def firstNumber : Reader Unit := do
  if ← keyword "AUTO_INCREMENT" then
    ignoring (symbol "=")
    ignoring (boundedNumber Range.short)

def storedOrder : Reader Unit := do
  if ← keywordsIn ["ORDER", "BY"] then
    if ← atSymbol "(" then ignoring (inParens (listUpTo ")" (expr g)))
    else ignoring (expr g)

/-- Read how the rows of a table are spread and clustered, if that is said. -/
def tableSpread : Reader Unit := do
  if g.dialect == .postgres || g.dialect == .generic then
    ignoring (afterAll ["PARTITION", "BY"] (expr g))
  if g.dialect == .generic then
    ignoring (afterAll ["CLUSTER", "BY"] identifiers)
    optionsAfter g "OPTIONS"

/-- Read a word after those words and an equals sign, if they are next. -/
def wordSetting (words : List String) : Reader Unit :=
  ignoring <| afterAll words do
    expectSymbol "="
    anyWord

def tableComment : Reader Unit := do
  if ← keyword "COMMENT" then
    ignoring (symbol "=")
    ignoring (singleString "comment")

def tableQuery : Reader Unit := do
  if ← keyword "AS" then ignoring g.query
  else if ← only (g.dialect == .mysql) (atKeyword "SELECT") then
    ignoring g.query

def tableSettings : Reader Unit := do
  ignoring (keywordsIn ["WITHOUT", "ROWID"])
  partitionColumns g
  buckets g
  whileFound (storageFormat g)
  optionsAfter g "WITH"
  optionsAfter g "TBLPROPERTIES"
  tableEngine
  firstNumber
  if g.dialect == .generic then ignoring (afterAll ["PRIMARY", "KEY"] (expr g))
  storedOrder g
  tableSpread g
  wordSetting ["DEFAULT", "CHARSET"]
  wordSetting ["COLLATE"]
  ignoring <| anyOf
    [["ON", "COMMIT", "DELETE", "ROWS"], ["ON", "COMMIT", "PRESERVE", "ROWS"],
      ["ON", "COMMIT", "DROP"]]
  ignoring (keyword "STRICT")
  tableComment

/-- Read the definition of a table after its word. -/
def createTable : Reader Unit := do
  ignoring ifNotExists
  ignoring objectName
  onCluster
  if (← oneOf ["LIKE", "ILIKE"]).isSome then ignoring (tolerate objectName)
  ignoring (after "CLONE" (tolerate objectName))
  tableColumns g
  tableSettings g
  tableQuery g

/-- Read the definition of a table that is kept elsewhere, after its first word. -/
def createExternalTable : Reader Unit := do
  expectKeyword "TABLE"
  ignoring ifNotExists
  ignoring objectName
  tableColumns g
  partitionColumns g
  whileFound (storageFormat g)
  optionsAfter g "TBLPROPERTIES"

/-- Read the definition of a table that a module computes, after its first word. -/
def createVirtualTable : Reader Unit := do
  expectKeyword "TABLE"
  ignoring ifNotExists
  ignoring objectName
  expectKeyword "USING"
  ignoring identifier
  ignoring (columnList true false)

end SqlInsight.Grammar
