/-
Reading the statements that change tables, views, indexes, roles and policies. Nothing of them is
kept.
-/
import SqlInsight.Grammar.Parser.Role
import SqlInsight.Grammar.Parser.Table

namespace SqlInsight.Grammar

open Reader

variable (g : Level)

/-- Read where a column is put among the others, if that is said. -/
def columnPlace : Reader Unit := do
  if g.dialect == .mysql || g.dialect == .generic then
    if !(← keyword "FIRST") then ignoring (after "AFTER" identifier)

def nameChange : Reader Unit := do
  ignoring identifier
  expectKeyword "TO"
  ignoring identifier

/-- Read the definition of a projection after its word. -/
def addProjection : Reader Unit := do
  ignoring ifNotExists
  ignoring identifier
  inParens do
    expectKeyword "SELECT"
    ignoring (commaList (selectItem g))
    ignoring (groupBy g)
    let order ← orderBy g
    if !order.isEmpty then interpolation g

/-- Read an addition to a table after its word. -/
def alterAdd : Reader Unit := do
  let isOpen := g.dialect == .postgres || g.dialect == .generic
  if !(← tableConstraint g) then
    if ← only (g.dialect == .generic) (keyword "PROJECTION") then addProjection g
    else
      ignoring ifNotExists
      let partitions ← manyOf (after "PARTITION" (exprsInParens g))
      if partitions.isEmpty then
        ignoring (keyword "COLUMN")
        if isOpen then ignoring ifNotExists
        columnDefinition g
        columnPlace g

/-- Read a renaming in a table after its word. -/
def alterRename : Reader Unit := do
  if ← only (g.dialect == .postgres) (keyword "CONSTRAINT") then nameChange
  else if ← keyword "TO" then ignoring objectName
  else
    ignoring (keyword "COLUMN")
    nameChange

/-- Read what is switched off in a table after the word. -/
def alterDisable : Reader Unit := do
  if !(← keywordsIn ["ROW", "LEVEL", "SECURITY"]) then
    if (← oneOf ["RULE", "TRIGGER"]).isSome then ignoring identifier
    else expected "ROW LEVEL SECURITY, RULE, or TRIGGER after DISABLE"

/-- Read what is switched on in a table after the word. -/
def alterEnable : Reader Unit := do
  let named :=
    [["ALWAYS", "RULE"], ["ALWAYS", "TRIGGER"], ["REPLICA", "RULE"], ["REPLICA", "TRIGGER"],
      ["RULE"], ["TRIGGER"]]
  if !(← keywordsIn ["ROW", "LEVEL", "SECURITY"]) then
    if ← anyOf named then ignoring identifier
    else expected "ALWAYS, REPLICA, ROW LEVEL SECURITY, RULE, or TRIGGER after ENABLE"

def storedProjection : Reader Unit := do
  ignoring ifExists
  ignoring identifier
  ignoring (afterAll ["IN", "PARTITION"] identifier)

/-- Read a removal from a table after its word. -/
def alterDrop : Reader Unit := do
  let d := g.dialect
  if ← anyOf [["IF", "EXISTS", "PARTITION"], ["PARTITION"]] then exprsInParens g
  else if ← keyword "CONSTRAINT" then
    ignoring ifExists
    ignoring identifier
    ignoring (keyword "CASCADE")
  else if (← keywordsIn ["PRIMARY", "KEY"]) && (d == .mysql || d == .generic) then return ()
  else if (← keyword "PROJECTION") && d == .generic then
    ignoring ifExists
    ignoring identifier
  else if ← keywordsIn ["CLUSTERING", "KEY"] then return ()
  else
    ignoring (keyword "COLUMN")
    ignoring ifExists
    ignoring identifier
    ignoring (keyword "CASCADE")

/-- Read a renaming of partitions after the word. -/
def alterPartition : Reader Unit := do
  exprsInParens g
  expectKeywords ["RENAME", "TO", "PARTITION"]
  exprsInParens g

/-- Read a new definition of a column after its word. -/
def alterDefinition (isRenamed : Bool) : Reader Unit := do
  ignoring (keyword "COLUMN")
  ignoring identifier
  if isRenamed then ignoring identifier
  ignoring (typeName g)
  whileFound (columnOption g)
  columnPlace g

/-- Read how the numbers of a column are generated, after the words. -/
def addGenerated : Reader Unit := do
  ignoring (anyOf [["ALWAYS"], ["BY", "DEFAULT"]])
  expectKeywords ["AS", "IDENTITY"]
  optionalSequence g

/-- Read a change of a column after its word. -/
def alterColumn : Reader Unit := do
  let isPostgres := g.dialect == .postgres
  ignoring (keyword "COLUMN")
  ignoring identifier
  if ← anyOf [["SET", "NOT", "NULL"], ["DROP", "NOT", "NULL"]] then return ()
  else if ← keywordsIn ["SET", "DEFAULT"] then ignoring (expr g)
  else if ← keywordsIn ["DROP", "DEFAULT"] then return ()
  else if ← (keywordsIn ["SET", "DATA", "TYPE"] <||> only isPostgres (keyword "TYPE")) then
    ignoring (typeName g)
    if isPostgres then ignoring (after "USING" (expr g))
  else if ← keywordsIn ["ADD", "GENERATED"] then addGenerated g
  else if isPostgres then
    expected "SET/DROP NOT NULL, SET DEFAULT, SET DATA TYPE, or ADD GENERATED after ALTER COLUMN"
  else expected "SET/DROP NOT NULL, SET DEFAULT, or SET DATA TYPE after ALTER COLUMN"

def partOrPartition : Reader Unit := do
  ignoring (expectOneOf ["PART", "PARTITION"])
  ignoring (expr g)

/-- Read a change of the parts of a table, which only the generic dialect knows. -/
def alterParts : Reader Bool := do
  if g.dialect == .generic then
    match ← oneOf ["ATTACH", "DETACH", "FREEZE", "UNFREEZE"] with
    | some word =>
        partOrPartition g
        if word == "FREEZE" || word == "UNFREEZE" then
          if ← keyword "WITH" then
            expectKeyword "NAME"
            ignoring identifier
        return true
    | none => return false
  else return false

/-- Read a change of how a table is kept. -/
def alterKeeping : Reader Unit := do
  let isOpen := g.dialect == .postgres || g.dialect == .generic
  if ← keyword "SWAP" then
    expectKeyword "WITH"
    ignoring objectName
  else if ← only isOpen (keywordsIn ["OWNER", "TO"]) then owner
  else if ← alterParts g then return ()
  else if ← keywordsIn ["CLUSTER", "BY"] then exprsInParens g
  else if ← anyOf [["SUSPEND", "RECLUSTER"], ["RESUME", "RECLUSTER"]] then return ()
  else if ← optionsAfterAll g ["SET", "TBLPROPERTIES"] then return ()
  else expected "ADD, RENAME, PARTITION, SWAP, DROP, or SET TBLPROPERTIES after ALTER TABLE"

def alterOperation : Reader Unit := do
  let isGeneric := g.dialect == .generic
  if ← keyword "ADD" then alterAdd g
  else if ← keyword "RENAME" then alterRename g
  else if ← keyword "DISABLE" then alterDisable
  else if ← keyword "ENABLE" then alterEnable
  else if (← keywordsIn ["CLEAR", "PROJECTION"]) && isGeneric then storedProjection
  else if (← keywordsIn ["MATERIALIZE", "PROJECTION"]) && isGeneric then storedProjection
  else if ← keyword "DROP" then alterDrop g
  else if ← keyword "PARTITION" then alterPartition g
  else if ← keyword "CHANGE" then alterDefinition g true
  else if ← keyword "MODIFY" then alterDefinition g false
  else if ← keyword "ALTER" then alterColumn g
  else alterKeeping g

/-- Read a change of a table after its word. -/
def alterTable : Reader Unit := do
  ignoring ifExists
  ignoring (keyword "ONLY")
  ignoring objectName
  onCluster
  ignoring (commaList (alterOperation g))
  if ← anyOf [["LOCATION"], ["SET", "LOCATION"]] then ignoring identifier

/-- Read a new definition of a view after its word. -/
def alterView : Reader Unit := do
  ignoring objectName
  ignoring (columnList true false)
  optionsAfter g "WITH"
  expectKeyword "AS"
  ignoring g.query

/-- Read a renaming of an index after its word. -/
def alterIndex : Reader Unit := do
  ignoring objectName
  if ← keyword "RENAME" then
    if ← keyword "TO" then ignoring objectName else expected "TO after RENAME"
  else expected "RENAME after ALTER INDEX"

/-- Read a change of a definition after its word. -/
def alterStatement : Reader Unit := do
  match ← expectOneOf ["VIEW", "TABLE", "INDEX", "ROLE", "POLICY"] with
  | "TABLE" => alterTable g
  | "VIEW" => alterView g
  | "INDEX" => alterIndex
  | "ROLE" => alterRole g
  | _ => alterPolicy g

end SqlInsight.Grammar
