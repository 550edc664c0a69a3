/-
Reading queries: common table expressions, the body with its set operations, and what limits and
orders its rows.
-/
import SqlInsight.Grammar.Parser.Change
import SqlInsight.Grammar.Parser.Select

namespace SqlInsight.Grammar

open Reader

variable (g : Level)

def commonTable : Reader Cte := do
  let name ← identifier
  let columns ←
    if ← keyword "AS" then pure []
    else do
      let columns ← aliasColumns g
      expectKeyword "AS"
      pure columns
  if g.dialect == .postgres then
    ignoring (anyOf [["MATERIALIZED"], ["NOT", "MATERIALIZED"]])
  let query ← queryInParens g
  ignoring (after "FROM" identifier)
  return .mk name columns query

/-- Read the rest of a body that is a whole table. It always takes three tokens. -/
def wholeTable : Reader Body := do
  let first ← peek
  let third ← peekAt 2
  match first with
  | .word _ _ _ =>
      if (← peekAt 1).isSymbol "." then
        match third with
        | .word _ _ _ => skip; skip; skip; return .other
        | _ => skip; skip; expected "Table name"
      else skip; skip; skip; return .other
  | _ => expected (if (← peekAt 1).isSymbol "." then "Schema name" else "Table name")

/-- Read a body without set operations. -/
def bodyOperand : Reader Body := do
  if ← keyword "SELECT" then return .select (← select g)
  else if ← symbol "(" then
    let inner ← g.query
    expectSymbol ")"
    return .query inner
  else if ← keyword "VALUES" then return .values (← rows g (g.dialect == .mysql))
  else if ← keyword "TABLE" then wholeTable
  else expected "SELECT, VALUES, or a subquery in the query body"

/-- Read whether a set operation keeps equal rows, and whether it goes by the names of columns. -/
def setQuantifier : Reader Unit := do
  if ← keywordsIn ["DISTINCT", "BY", "NAME"] then return ()
  else if ← keywordsIn ["BY", "NAME"] then return ()
  else if ← keyword "ALL" then ignoring (keywordsIn ["BY", "NAME"])
  else ignoring (keyword "DISTINCT")

/-- How tightly a set operation binds; zero if the word is none. -/
def setStrength (word : String) : Nat :=
  match word with
  | "UNION" | "EXCEPT" => 10
  | "INTERSECT" => 20
  | _ => 0

/-- Read set operations on a body that bind tighter than `least`; `right` reads the operand after
one of that strength. -/
def setOperations (right : Nat → Reader Body) (least : Nat) (left : Body) :
    (fuel : Nat) → Reader Body
  | 0 => return left
  | fuel + 1 => do
      let strength := setStrength (← peek).keyword
      if strength ≤ least then return left
      else
        skip
        setQuantifier
        setOperations right least (.operation left (← right strength)) fuel

/-- Read a body whose set operations bind tighter than `least`. There are two strengths of these, so
two levels of operations are enough. -/
def bodyAbove : (levels : Nat) → (least : Nat) → Reader Body
  | 0, _ => bodyOperand g
  | levels + 1, least => do
      let first ← bodyOperand g
      setOperations (bodyAbove levels) least first ((← get).length + 1)

/-- Read how missing rows are filled in, if that is said. -/
def interpolation : Reader Unit := do
  if ← only (g.dialect == .generic) (keyword "INTERPOLATE") then
    if ← symbol "(" then
      if !(← symbol ")") then
        ignoring <| commaList do
          ignoring identifier
          ignoring (after "AS" (expr g))
        expectSymbol ")"

/-- Read how many rows there are at most and how many are left out, in either order; the arguments
tell which of the two has been read. -/
def limits (hasLimit hasOffset : Bool) : (rounds : Nat) → Reader Unit
  | 0 => return ()
  | rounds + 1 => do
      let limited ←
        if ← only (!hasLimit) (keyword "LIMIT") then limit g else pure hasLimit
      let skipped ←
        if ← only (!hasOffset) (keyword "OFFSET") then do
          ignoring (expr g)
          ignoring (oneOf ["ROW", "ROWS"])
          pure true
        else pure hasOffset
      let comma :=
        (g.dialect == .mysql || g.dialect == .generic) && limited && !skipped
      if ← only comma (symbol ",") then
        ignoring (expr g)
        limits true true rounds
      else limits limited skipped rounds

/-- Read how many rows are fetched after the word. -/
def fetch : Reader Unit := do
  ignoring (expectOneOf ["FIRST", "NEXT"])
  if (← oneOf ["ROW", "ROWS"]).isNone then
    ignoring (value g.dialect)
    ignoring (keyword "PERCENT")
    ignoring (expectOneOf ["ROW", "ROWS"])
  if !(← keyword "ONLY") then
    if !(← keywordsIn ["WITH", "TIES"]) then expected "one of ONLY or WITH TIES"

def nameInParens : Reader Unit :=
  ignoring (inParens (stringText g.dialect))

/-- Read a name in parentheses, if a parenthesis is next. -/
def optionalName : Reader Unit := do
  if ← atSymbol "(" then nameInParens g

/-- Read an option of a result in another format, if one is next; each begins with a comma. -/
def formatOption (isXml : Bool) : Reader Bool := do
  if ← symbol "," then
    if isXml then
      if ← keyword "ELEMENTS" then pure ()
      else if ← keyword "BINARY" then expectKeyword "BASE64"
      else if ← keyword "ROOT" then nameInParens g
      else ignoring (keyword "TYPE")
    else if ← keyword "ROOT" then nameInParens g
    else ignoring (oneOf ["INCLUDE_NULL_VALUES", "WITHOUT_ARRAY_WRAPPER"])
    return true
  else return false

def resultFormat : Reader Bool := do
  if ← keyword "XML" then
    match ← oneOf ["RAW", "AUTO", "EXPLICIT", "PATH"] with
    | some "RAW" | some "PATH" => optionalName g
    | some _ => pure ()
    | none => fail "Expected FOR XML [RAW | AUTO | EXPLICIT | PATH ]"
    whileFound (formatOption g true)
    return true
  else if ← keyword "JSON" then
    if (← oneOf ["AUTO", "PATH"]).isNone then fail "Expected FOR JSON [AUTO | PATH ]"
    whileFound (formatOption g false)
    return true
  else keyword "BROWSE"

/-- Read how rows are locked, after `FOR`. -/
def lock : Reader Unit := do
  ignoring (expectOneOf ["UPDATE", "SHARE"])
  ignoring (after "OF" objectName)
  ignoring (anyOf [["NOWAIT"], ["SKIP", "LOCKED"]])

/-- Read formats and locks of the rows; a format ends them. -/
def forClauses : (fuel : Nat) → Reader Unit
  | 0 => return ()
  | fuel + 1 => do
      if ← keyword "FOR" then
        if !(← resultFormat g) then
          lock
          forClauses fuel

/-- Read what follows the body and the order of a query. -/
def queryEnd : Reader Unit := do
  limits g false false 2
  if g.dialect == .generic then
    ignoring (after "BY" (exprs g))
    ignoring (settings g)
  ignoring (after "FETCH" (fetch g))
  forClauses g ((← get).length + 1)
  if ← only (g.dialect == .generic) (keyword "FORMAT") then
    if !(← keyword "NULL") then ignoring identifier

/-- Read a query. A change of rows may stand in the place of its body. -/
def query : Reader Query := do
  let ctes ←
    if ← keyword "WITH" then do
      ignoring (keyword "RECURSIVE")
      commaList (commonTable g)
    else pure []
  if ← keyword "INSERT" then
    ignoring (insertStatement g)
    return .mk ctes .other []
  else if ← keyword "UPDATE" then
    ignoring (updateStatement g)
    return .mk ctes .other []
  else
    let body ← bodyAbove g 2 0
    let order ← orderBy g
    if !order.isEmpty then interpolation g
    queryEnd g
    return .mk ctes body order

end SqlInsight.Grammar
