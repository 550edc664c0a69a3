/-
Reading the expressions that a word of their own begins: conditions, conversions, and the calls
whose arguments are set apart by words.
-/
import SqlInsight.Grammar.Parser.Binding
import SqlInsight.Grammar.Parser.TypeName

namespace SqlInsight.Grammar

open Reader

variable (g : Level)

def caseForm : Reader Expr := do
  let operand ←
    if ← keyword "WHEN" then pure none
    else do
      let e ← expr g
      expectKeyword "WHEN"
      pure (some e)
  let branches ← separatedBy (keyword "WHEN") do
    let condition ← expr g
    expectKeyword "THEN"
    return (condition, ← expr g)
  let otherwise ← after "ELSE" (expr g)
  expectKeyword "END"
  return .case operand (branches.map Prod.fst) (branches.map Prod.snd) otherwise

/-- Read a conversion after its word. -/
def convertForm : Reader Expr :=
  inParens do
    if g.dialect == .mssql then
      ignoring (typeName g)
      expectSymbol ","
      let e ← expr g
      let styles ← if ← symbol "," then exprs g else pure []
      return .convert e styles
    else
      let e ← expr g
      if ← keyword "USING" then ignoring objectName
      else
        expectSymbol ","
        ignoring (typeName g)
        ignoring (afterAll ["CHARACTER", "SET"] objectName)
      return .convert e []

def castForm : Reader Expr :=
  inParens do
    let e ← expr g
    expectKeyword "AS"
    ignoring (typeName g)
    if ← keyword "FORMAT" then
      ignoring (value g.dialect)
      ignoring (afterAll ["AT", "TIME", "ZONE"] (value g.dialect))
    return .cast e

/-- Read the extraction of a part of a time after its word. -/
def extractForm : Reader Expr :=
  inParens do
    ignoring (timeField g.dialect)
    if !(← keyword "FROM") then
      if !((← symbol ",") && g.dialect == .generic) then fail "Expected 'FROM' or ','"
    return .special "EXTRACT" [← expr g]

def roundForm (name : String) : Reader Expr :=
  inParens do
    let e ← expr g
    if ← keyword "TO" then ignoring (timeField g.dialect)
    else if ← symbol "," then
      match ← value g.dialect with
      | .number _ => pure ()
      | _ => fail "Scale field can only be of number type"
    return .special name [e]

/-- Read a position in a string after its word: its own form, or else a call. -/
def positionForm (name : Ident) : Reader Expr := do
  let form ← attempt <| inParens do
    let e ← g.expr (Binding.between.strength g.dialect)
    expectKeyword "IN"
    return Expr.special "POSITION" [e, ← expr g]
  match form with
  | some e => return e
  | none => call g [name]

/-- Read a part of a string after its word. -/
def substringForm : Reader Expr :=
  inParens do
    let e ← expr g
    let start ←
      if ← (symbol "," <||> keyword "FROM") then (fun s => [s]) <$> expr g else pure []
    let length ←
      if ← (keyword "FOR" <||> symbol ",") then (fun s => [s]) <$> expr g else pure []
    return .special "SUBSTRING" (e :: start ++ length)

/-- Read the replacement of a part of a string after its word. -/
def overlayForm : Reader Expr :=
  inParens do
    let e ← expr g
    expectKeyword "PLACING"
    let what ← expr g
    expectKeyword "FROM"
    let start ← expr g
    let length ← after "FOR" (expr g)
    return .special "OVERLAY" ([e, what, start] ++ length.toList)

/-- Read the trimming of a string after its word. -/
def trimForm : Reader Expr :=
  inParens do
    ignoring (oneOf ["BOTH", "LEADING", "TRAILING"])
    let e ← expr g
    if ← keyword "FROM" then return .special "TRIM" [e, ← expr g]
    else if (← symbol ",") && g.dialect == .generic then return .special "TRIM" (e :: (← exprs g))
    else return .special "TRIM" [e]

/-- Read the items of an array after its bracket. -/
def arrayForm : Reader Expr := do
  let items ← listUpTo "]" (expr g)
  expectSymbol "]"
  return .special "ARRAY" items

/-- Read a full-text match after its word. -/
def matchForm : Reader Expr := do
  let columns ← columnList false false
  expectKeyword "AGAINST"
  inParens do
    ignoring (value g.dialect)
    let expansion := ["WITH", "QUERY", "EXPANSION"]
    if ← keywordsIn ["IN", "NATURAL", "LANGUAGE", "MODE"] then ignoring (keywordsIn expansion)
    else ignoring (anyOf [["IN", "BOOLEAN", "MODE"], expansion])
    return .special "MATCH" (columns.map .identifier)

/-- Read the types of the fields of a structure, whose word stands at `start`; whether a `>>` has
closed them. -/
def structFieldTypes (start : Option Position) : (fuel : Nat) → Reader Bool
  | 0 => return false
  | fuel + 1 => do
      let (_, closed) ← structField (openType g)
      if ← symbol "," then
        if closed then failAt "unmatched > in STRUCT definition" start
        structFieldTypes start fuel
      else return closed

/-- Read the types in brackets after the word of a structure, if there are any. -/
def structTypes (start : Option Position) : Reader Bool := do
  if ← symbol "<" then
    let closed ← structFieldTypes g start ((← get).length + 1)
    if ← closeAngle closed then failAt "unmatched > in STRUCT literal" (← place)
    return true
  else return false

/-- Read a structure after its word, which stands at `start`. -/
def structForm (start : Option Position) : Reader Expr := do
  let isTyped ← structTypes g start
  let fields ← listInParens do
    let e ← expr g
    let namePlace ← place
    if ← keyword "AS" then
      if isTyped then failAt "Typed syntax does not allow AS" namePlace
      ignoring identifier
    return e
  return .special "STRUCT" fields

def dictionaryEntry (key : Reader (List Expr)) : Reader (List Expr) := do
  let k ← key
  expectSymbol ":"
  return k ++ [← expr g]

/-- Read a dictionary whose keys are expressions after its word. -/
def mapForm : Reader Expr := do
  expectSymbol "\x7b"
  let entries ← listUpTo "\x7d" (dictionaryEntry g ((fun e => [e]) <$> expr g))
  expectSymbol "\x7d"
  return .special "MAP" entries.flatten

/-- Read what a brace begins: a call in the braces of a driver, or a dictionary. -/
def braceForm : Reader Expr := do
  let start ← place
  skip
  let called ← attempt do
    expectKeyword "FN"
    call g (← objectName)
  match called with
  | some e =>
      expectSymbol "\x7d"
      return e
  | none =>
      if g.dialect == .generic then
        let entries ← commaList (dictionaryEntry g (do ignoring identifier; return []))
        expectSymbol "\x7d"
        return .special "DICTIONARY" entries.flatten
      else expectedAt "an expression" (.symbol "\x7b") start

/-- Read what a word, which stands at `start`, begins if it has a form of its own; none if it has no
such form. `operand` reads the value of an interval. -/
def reservedForm (name : Ident) (word : String) (start : Option Position)
    (operand : Reader Expr) : Reader (Option Expr) := do
  let d := g.dialect
  match word with
  | "TRUE" | "FALSE" => if d.hasBooleanLiterals then return some .literal else return none
  | "NULL" => return some .literal
  | "CURRENT_CATALOG" | "CURRENT_USER" | "SESSION_USER" | "USER" =>
      if d == .postgres || d == .generic then return some (.call [name] [] [] [] none)
      else return none
  | "CURRENT_TIMESTAMP" | "CURRENT_TIME" | "CURRENT_DATE" | "LOCALTIME" | "LOCALTIMESTAMP" =>
      if ← symbol "(" then
        let (list, rest, _) ← arguments g
        return some (.call [name] [] list rest none)
      else return some (.call [name] [] [] [] none)
  | "CASE" => return some (← caseForm g)
  | "CONVERT" => return some (← convertForm g)
  | "TRY_CONVERT" =>
      if d == .mssql || d == .generic then return some (← convertForm g) else return none
  | "CAST" | "TRY_CAST" | "SAFE_CAST" => return some (← castForm g)
  | "EXISTS" => return some (.exists (← queryInParens g))
  | "EXTRACT" => return some (← extractForm g)
  | "CEIL" | "FLOOR" => return some (← roundForm g word)
  | "POSITION" => if ← atSymbol "(" then return some (← positionForm g name) else return none
  | "SUBSTRING" => return some (← substringForm g)
  | "OVERLAY" => return some (← overlayForm g)
  | "TRIM" => return some (← trimForm g)
  | "INTERVAL" => return some (← interval g operand)
  | "ARRAY" =>
      if ← symbol "[" then return some (← arrayForm g)
      else if ← atSymbol "(" then
        return some (.call [name] [] [.query (← queryInParens g)] [] none)
      else return none
  | "NOT" =>
      if ← keyword "EXISTS" then return some (.exists (← queryInParens g))
      else return some (.unary "NOT" (← g.expr (Binding.not.strength d)))
  | "MATCH" =>
      if d == .mysql || d == .generic then return some (← matchForm g) else return none
  | "STRUCT" => if d == .generic then return some (← structForm g start) else return none
  | "PRIOR" =>
      if g.isHierarchy then
        return some (.special "PRIOR" [← g.expr (Binding.sum.strength d)])
      else return none
  | "MAP" =>
      if ← only (d == .generic) (atSymbol "\x7b") then return some (← mapForm g) else return none
  | _ => return none

end SqlInsight.Grammar
