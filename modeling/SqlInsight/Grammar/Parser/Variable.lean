/-
Reading the statements that set and show the variables of a session, and what a database holds.
Nothing of them is kept.
-/
import SqlInsight.Grammar.Parser.Change
import SqlInsight.Grammar.Parser.Control

namespace SqlInsight.Grammar

open Reader

variable (g : Level)

def variableValue : Reader Unit := do
  if ← atSubquery then ignoring g.query
  else if (← tolerate (expr g)).isNone then expected "variable value"

/-- Read a role that is set, after the scope of the setting. -/
def roleChoice : Reader Unit := do
  expectKeyword "ROLE"
  if !(← keyword "NONE") then ignoring identifier

/-- Read the name of a variable that is set, as it is shown; none for a list of variables. -/
def variableName : Reader (Option String) := do
  if ← keywordsIn ["TIME", "ZONE"] then return some "TIMEZONE"
  else if ← only (g.dialect == .generic) (symbol "(") then
    ignoring identifiers
    expectSymbol ")"
    return none
  else return some (ObjectName.render (← objectName))

/-- Whether two texts are equal up to the case of their ASCII letters. -/
def equalFolded (s t : String) : Bool :=
  Text.asciiUpper s.toList == Text.asciiUpper t.toList

/-- Read the character set of the session after the word for it. -/
def characterSet : Reader Unit := do
  if !(← keyword "DEFAULT") then
    ignoring (stringText g.dialect)
    ignoring (after "COLLATE" (stringText g.dialect))

def settingWithoutSign (name : String) (isScoped : Bool) : Reader Unit := do
  if equalFolded name "TIMEZONE" then
    if (← tolerate (expr g)).isNone then expected "timezone value"
  else if name == "CHARACTERISTICS" then
    expectKeywords ["AS", "TRANSACTION"]
    transactionModes
  else if name == "TRANSACTION" && !isScoped then
    if ← keyword "SNAPSHOT" then ignoring (value g.dialect) else transactionModes
  else expected "equals sign or TO"

def variableSetting (isScoped : Bool) : Reader Unit := do
  let d := g.dialect
  let name? ← variableName g
  let isNames := name?.any (equalFolded · "NAMES") && (d == .mysql || d == .generic)
  if isNames then characterSet g
  else if ← (symbol "=" <||> keyword "TO") then
    if name?.isNone then expectSymbol "("
    ignoring (commaList (variableValue g))
    if name?.isNone then expectSymbol ")"
  else
    match name? with
    | some name => settingWithoutSign g name isScoped
    | none => expected "set variable"

/-- Read the setting of a variable after its word. -/
def setStatement : Reader Unit := do
  let scope ← oneOf ["SESSION", "LOCAL", "HIVEVAR"]
  if scope == some "HIVEVAR" then
    expectSymbol ":"
    variableSetting g true
  else if (← attempt roleChoice).isNone then variableSetting g scope.isSome

/-- Read a condition on what is shown, if there is one. -/
def showFilter : Reader Unit := do
  if (← oneOf ["LIKE", "ILIKE"]).isSome then ignoring (stringText g.dialect)
  else if ← keyword "WHERE" then ignoring (expr g)
  else ignoring (attempt (stringText g.dialect))

/-- Whether what follows a kind of object says that it has no name. -/
def atShowEnd : Reader Bool := do
  return (← atKeywords ["STARTS", "WITH"]) || (← atKeyword "LIMIT")

/-- Read what the objects shown belong to, if it is given. -/
def showParent : Reader Unit := do
  if (← oneOf ["FROM", "IN"]).isSome then
    match ← oneOf ["ACCOUNT", "DATABASE", "SCHEMA", "TABLE", "VIEW"] with
    | some kind =>
        let isNameless ← only (kind == "DATABASE" || kind == "SCHEMA") atShowEnd
        if !isNameless then ignoring (attempt objectName)
    | none =>
        ignoring objectName
        if (← oneOf ["FROM", "IN"]).isSome then ignoring identifier

/-- Read what narrows the objects shown. -/
def showOptions : Reader Unit := do
  showParent
  showFilter g
  ignoring (afterAll ["STARTS", "WITH"] (value g.dialect))
  ignoring (after "LIMIT" (limit g))
  ignoring (after "FROM" (value g.dialect))

/-- Drop tokens up to the end of the text or an equals sign. -/
def skipToSign : Reader Unit :=
  modify fun tokens => tokens.dropWhile fun t => !t.1.isSymbol "="

/-- Read what is shown of the session or of databases, after the words that restrict it. -/
def showOther : Reader Unit := do
  let hasVariables := g.dialect == .mysql || g.dialect == .generic
  if ← keyword "CREATE" then
    ignoring (expectOneOf ["TABLE", "TRIGGER", "FUNCTION", "PROCEDURE", "EVENT", "VIEW"])
    ignoring objectName
  else if ← keyword "COLLATION" then showFilter g
  else if (← keyword "VARIABLES") && hasVariables then showFilter g
  else if (← keyword "STATUS") && hasVariables then showFilter g
  else if (← oneOf ["DATABASES", "SCHEMAS"]).isSome then
    ignoring (keyword "HISTORY")
    showOptions g
  else skipToSign

/-- Read a request to show something after its word. -/
def showStatement : Reader Unit := do
  ignoring (keyword "TERSE")
  let extended ← keyword "EXTENDED"
  let full ← keyword "FULL"
  ignoring (keyword "SESSION")
  ignoring (keyword "GLOBAL")
  let external ← keyword "EXTERNAL"
  if (← oneOf ["COLUMNS", "FIELDS"]).isSome then showOptions g
  else if ← keyword "TABLES" then
    ignoring (only (!external) (keyword "HISTORY"))
    showOptions g
  else if ← anyOf [["MATERIALIZED", "VIEWS"], ["VIEWS"]] then showOptions g
  else if ← keyword "FUNCTIONS" then showFilter g
  else if extended || full then
    fail "EXTENDED/FULL are not supported with this type of SHOW query"
  else showOther g

def pragmaValue : Reader Unit := do
  let start ← get
  match ← value g.dialect with
  | .other =>
      set start
      expected "number or string or ? placeholder"
  | _ => return ()

def pragmaStatement : Reader Unit := do
  ignoring objectName
  if ← atSymbol "(" then inParens (pragmaValue g)
  else if ← symbol "=" then pragmaValue g

end SqlInsight.Grammar
