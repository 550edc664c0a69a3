/-
Reading the statements that run others and steer transactions: calls, cursors, prepared statements,
plans. Nothing of them is kept.
-/
import SqlInsight.Grammar.Parser.TypeName

namespace SqlInsight.Grammar

open Reader

variable (g : Level)

/-- Read a call of a stored routine after its word. -/
def executeStatement : Reader Unit := do
  ignoring objectName
  if ← symbol "(" then
    ignoring (listUpTo ")" (expr g))
    expectSymbol ")"
  else
    match ← peek with
    | .endOfText | .symbol ";" => pure ()
    | .word _ _ "USING" => pure ()
    | _ => ignoring (exprs g)
  ignoring (after "USING" (exprs g))

/-- Read a call of a procedure after its word. -/
def callStatement : Reader Unit := do
  let name ← objectName
  if ← atSymbol "(" then ignoring (call g name)

/-- Read the declaration of a variable, whose name begins with an at sign. -/
def variableDeclaration : Reader Unit := do
  let name ← identifier
  if !name.value.startsWith "@" then fail "Invalid MsSql variable declaration."
  if !(← keyword "CURSOR") then
    ignoring (keyword "AS")
    ignoring (typeName g)
  if ← symbol "=" then ignoring (expr g)

def cursorDeclaration : Reader Unit := do
  ignoring identifier
  ignoring (keyword "BINARY")
  ignoring (oneOf ["INSENSITIVE", "ASENSITIVE"])
  ignoring (anyOf [["SCROLL"], ["NO", "SCROLL"]])
  expectKeyword "CURSOR"
  if (← oneOf ["WITH", "WITHOUT"]).isSome then expectKeyword "HOLD"
  expectKeyword "FOR"
  ignoring g.query

/-- Read a declaration after its word. -/
def declareStatement : Reader Unit := do
  if g.dialect == .mssql then ignoring (commaList (variableDeclaration g))
  else cursorDeclaration g

def cursorDirection : Reader Unit := do
  if (← oneOf ["NEXT", "PRIOR", "FIRST", "LAST", "ALL"]).isNone then
    let toAll ←
      match ← oneOf ["ABSOLUTE", "RELATIVE", "FORWARD", "BACKWARD"] with
      | some "FORWARD" | some "BACKWARD" => keyword "ALL"
      | _ => pure false
    if !toAll then ignoring (numberValue g.dialect)

/-- Read the fetching of rows of a cursor after its word. -/
def fetchStatement : Reader Unit := do
  cursorDirection g
  ignoring (expectOneOf ["FROM", "IN"])
  ignoring identifier
  ignoring (after "INTO" objectName)

/-- Read the closing of a cursor after its word. -/
def closeStatement : Reader Unit := do
  if !(← keyword "ALL") then ignoring identifier

def transactionMode : Reader Bool := do
  if ← keywordsIn ["ISOLATION", "LEVEL"] then
    let levels :=
      [["READ", "UNCOMMITTED"], ["READ", "COMMITTED"], ["REPEATABLE", "READ"], ["SERIALIZABLE"]]
    if ← anyOf levels then return true else expected "isolation level"
  else anyOf [["READ", "ONLY"], ["READ", "WRITE"]]

/-- Read transaction modes; a comma demands another one. -/
def transactionModesFrom (isRequired : Bool) : (fuel : Nat) → Reader Unit
  | 0 => return ()
  | fuel + 1 => do
      if ← transactionMode then transactionModesFrom (← symbol ",") fuel
      else if isRequired then expected "transaction mode"

def transactionModes : Reader Unit := do
  transactionModesFrom false ((← get).length + 1)

def startStatement : Reader Unit := do
  expectKeyword "TRANSACTION"
  transactionModes

/-- Read the start of a transaction after `BEGIN`. -/
def beginStatement : Reader Unit := do
  if g.dialect == .generic then ignoring (oneOf ["DEFERRED", "IMMEDIATE", "EXCLUSIVE"])
  ignoring (oneOf ["TRANSACTION", "WORK"])
  transactionModes

/-- Read the end of a transaction after its word. -/
def endStatement : Reader Unit := do
  ignoring (oneOf ["TRANSACTION", "WORK"])
  if ← keyword "AND" then
    ignoring (keyword "NO")
    expectKeyword "CHAIN"

/-- Read the undoing of a transaction after its word. -/
def rollbackStatement : Reader Unit := do
  endStatement
  if ← keyword "TO" then
    ignoring (keyword "SAVEPOINT")
    ignoring identifier

/-- Read the release of a savepoint after its word. -/
def releaseStatement : Reader Unit := do
  ignoring (keyword "SAVEPOINT")
  ignoring identifier

/-- Read the preparation of a statement after its word. -/
def prepareStatement : Reader Unit := do
  ignoring identifier
  if ← atSymbol "(" then ignoring (listInParens (typeName g))
  expectKeyword "AS"
  ignoring g.statement

/-- Read the removal of a prepared statement after its word. -/
def deallocateStatement : Reader Unit := do
  ignoring (keyword "PREPARE")
  ignoring identifier

/-- Read an assertion after its word. -/
def assertStatement : Reader Unit := do
  ignoring (expr g)
  ignoring (after "AS" (expr g))

def planOption : Reader Unit := do
  ignoring identifier
  if !((← atSymbol ",") || (← atSymbol ")")) then ignoring (expr g)

/-- Read how a plan is shown, after the word that asks for it. -/
def planOptions (word : String) : Reader Unit := do
  let hasList := word == "EXPLAIN" && (g.dialect == .postgres || g.dialect == .generic)
  if ← only hasList (atSymbol "(") then ignoring (listInParens (planOption g))
  else if ← keywordsIn ["QUERY", "PLAN"] then return ()
  else
    ignoring (keyword "ANALYZE")
    ignoring (keyword "VERBOSE")
    if ← keyword "FORMAT" then
      if (← oneOf ["TEXT", "GRAPHVIZ", "JSON"]).isNone then wrongNext "fileformat"

/-- Read a request to explain a statement, or to describe a table, after its word. -/
def explainStatement (word : String) : Reader Unit := do
  planOptions g word
  let first := (← peek).keyword
  match ← attempt g.statement with
  | some _ =>
      if ["EXPLAIN", "DESCRIBE", "DESC"].contains first then fail "Explain must be root of the plan"
  | none =>
      ignoring (oneOf ["EXTENDED", "FORMATTED"])
      ignoring objectName

end SqlInsight.Grammar
