/-
Reading the options of definitions, and the constraints of tables with what is said about the time
at which they are checked. Nothing of them is kept, so these readers only accept or refuse.
-/
import SqlInsight.Grammar.Parser.Call
import SqlInsight.Grammar.Shown

namespace SqlInsight.Grammar

open Reader

variable (g : Level)

def exprInParens : Reader Unit :=
  ignoring (inParens (expr g))

def exprsInParens : Reader Unit :=
  ignoring (inParens (exprs g))

/-- Read an option that says how the rows of a table are spread over partitions. -/
def partitionOption : Reader Unit := do
  expectKeyword "PARTITION"
  inParens do
    ignoring identifier
    expectKeyword "RANGE"
    ignoring (oneOf ["LEFT", "RIGHT"])
    expectKeywords ["FOR", "VALUES"]
    exprsInParens g

/-- Read an option that says how the rows of a table are indexed. -/
def clusteredOption : Reader Unit := do
  if ← keywordsIn ["CLUSTERED", "COLUMNSTORE", "INDEX", "ORDER"] then
    ignoring (columnList false false)
  else if ← keywordsIn ["CLUSTERED", "COLUMNSTORE", "INDEX"] then return ()
  else if ← keywordsIn ["CLUSTERED", "INDEX"] then
    ignoring <| listInParens do
      ignoring identifier
      sortOrder
  else fail "invalid CLUSTERED sequence"

def definitionOption : Reader Unit := do
  let hasForms := g.dialect == .mssql || g.dialect == .generic
  match hasForms, (← peek).keyword with
  | true, "HEAP" => skip
  | true, "PARTITION" => partitionOption g
  | true, "CLUSTERED" => clusteredOption
  | _, _ =>
      ignoring identifier
      expectSymbol "="
      ignoring (expr g)

/-- Read options in parentheses after those words, if they are next; whether they were. -/
def optionsAfterAll (words : List String) : Reader Bool := do
  return (← afterAll words (listInParens (definitionOption g))).isSome

def optionsAfter (word : String) : Reader Unit :=
  ignoring (optionsAfterAll g [word])

/-- Read what happens to rows that refer to a changed or deleted row. -/
def referentialAction : Reader Unit := do
  let actions :=
    [["RESTRICT"], ["CASCADE"], ["SET", "NULL"], ["NO", "ACTION"], ["SET", "DEFAULT"]]
  if !(← anyOf actions) then
    expected "one of RESTRICT, CASCADE, SET NULL, NO ACTION or SET DEFAULT"

def actionAfter (words : List String) : Reader Bool := do
  return (← afterAll words referentialAction).isSome

/-- Read what happens when the row referred to is deleted or changed, each at most once. -/
def referenceActions : Reader Unit :=
  eachOnce [actionAfter ["ON", "DELETE"], actionAfter ["ON", "UPDATE"]]

def initialCheck : Reader Bool := do
  if ← keyword "INITIALLY" then
    if (← oneOf ["DEFERRED", "IMMEDIATE"]).isNone then expected "one of DEFERRED or IMMEDIATE"
    return true
  else return false

/-- Read when a constraint is checked, each part at most once. -/
def constraintTraits : Reader Unit :=
  eachOnce
    [anyOf [["NOT", "DEFERRABLE"], ["DEFERRABLE"]], initialCheck,
      anyOf [["ENFORCED"], ["NOT", "ENFORCED"]]]

def indexMethod : Reader Bool := do
  if ← keyword "USING" then
    if (← oneOf ["BTREE", "HASH"]).isNone then expected "index type \x7bBTREE | HASH\x7d"
    return true
  else return false

def indexOption : Reader Bool := do
  if ← indexMethod then return true
  else return (← after "COMMENT" (stringText g.dialect)).isSome

/-- Read the name and the columns of a key after its words. -/
def keyColumns : Reader Unit := do
  ignoring (attempt identifier)
  ignoring indexMethod
  ignoring (columnList false false)
  whileFound (indexOption g)
  constraintTraits

def uniqueKey : Reader Unit := do
  let isIndex := (← oneOf ["KEY", "INDEX"]).isSome
  if isIndex && !(g.dialect == .mysql || g.dialect == .generic) then
    expected "\x60index_name\x60 or \x60(column_name [, ...])\x60"
  if ← keyword "NULLS" then
    ignoring (keyword "NOT")
    expectKeyword "DISTINCT"
  keyColumns g

def foreignKey : Reader Unit := do
  ignoring (columnList false false)
  expectKeyword "REFERENCES"
  ignoring objectName
  ignoring (columnList false false)
  referenceActions
  constraintTraits

def tableIndex : Reader Unit := do
  if !(← atKeyword "USING") then ignoring (attempt identifier)
  ignoring indexMethod
  ignoring (columnList false false)

def tableConstraint : Reader Bool := do
  let name? ← after "CONSTRAINT" identifier
  let hasIndexes := g.dialect == .mysql || g.dialect == .generic
  let start ← place
  let word := (← peek).keyword
  match word with
  | "UNIQUE" => skip; uniqueKey g; return true
  | "PRIMARY" => skip; expectKeyword "KEY"; keyColumns g; return true
  | "FOREIGN" => skip; expectKeyword "KEY"; foreignKey; return true
  | "CHECK" => skip; exprInParens g; return true
  | _ =>
      if hasIndexes && (word == "FULLTEXT" || word == "SPATIAL") then
        match name? with
        | some name =>
            let what := "FULLTEXT or SPATIAL option without constraint name"
            failAt ("Expected: " ++ what ++ ", found: " ++ name.render) start
        | none =>
            skip
            ignoring (oneOf ["KEY", "INDEX"])
            ignoring (attempt identifier)
            ignoring (columnList false false)
            return true
      else if name?.isSome then wrongNext "PRIMARY, UNIQUE, FOREIGN, or CHECK"
      else if hasIndexes && (word == "INDEX" || word == "KEY") then
        skip
        tableIndex
        return true
      else return false

end SqlInsight.Grammar
