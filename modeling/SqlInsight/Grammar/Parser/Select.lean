/-
Reading a `SELECT` with its clauses, each of which may be missing but keeps its place.
-/
import SqlInsight.Grammar.Parser.Expr
import SqlInsight.Grammar.Parser.Relation

namespace SqlInsight.Grammar

open Reader

variable (g : Level)

/-- Read whether equal rows are kept, and what else is said about the rows of a `SELECT`. -/
def distinctness : Reader Unit := do
  let start ← place
  let all ← keyword "ALL"
  if ← keyword "DISTINCT" then
    if all then failAt "Cannot specify both ALL and DISTINCT" start
    if ← keyword "ON" then ignoring (inParens (listUpTo ")" (expr g)))

/-- Read how many of the first rows are taken. -/
def top : Reader Unit := do
  if ← keyword "TOP" then
    if ← atSymbol "(" then ignoring (inParens (expr g))
    else ignoring wholeNumber
    ignoring (keyword "PERCENT")
    ignoring (keywordsIn ["WITH", "TIES"])

/-- Read the table that the rows of a `SELECT` are put into. -/
def selectInto : Reader Unit := do
  if ← keyword "INTO" then
    ignoring (oneOf ["TEMP", "TEMPORARY"])
    ignoring (keyword "UNLOGGED")
    ignoring (keyword "TABLE")
    ignoring objectName

/-- Read a view of the rows that a function makes of each row, if one is next. -/
def lateralView : Reader Bool := do
  if ← keywordsIn ["LATERAL", "VIEW"] then
    ignoring (keyword "OUTER")
    ignoring (expr g)
    ignoring objectName
    ignoring (commaList (aliasUnless ["WHERE", "GROUP", "CLUSTER", "HAVING", "LATERAL"]))
    return true
  else return false

def groupInParens : Reader (List Expr) :=
  inParens (listUpTo ")" (expr g))

/-- Read a group of expressions in parentheses, or a lone one. -/
def groupOrExpr : Reader (List Expr) := do
  if ← atSymbol "(" then groupInParens g else return [← expr g]

def groupItem : Reader Expr := do
  if g.dialect == .postgres || g.dialect == .generic then
    if ← keywordsIn ["GROUPING", "SETS"] then
      return .special "GROUPING SETS" (← listInParens (groupInParens g)).flatten
    else
      match ← oneOf ["CUBE", "ROLLUP"] with
      | some word => return .special word (← listInParens (groupOrExpr g)).flatten
      | none => if ← symbols ["(", ")"] then return .tuple [] else expr g
  else expr g

/-- Read a further wish about the groups, if one is next. -/
def groupModifier : Reader Bool := do
  if ← only (g.dialect == .generic) (keyword "WITH") then
    ignoring (expectOneOf ["ROLLUP", "CUBE", "TOTALS"])
    return true
  else return false

/-- Read a `GROUP BY` list, if the words are next; that of all columns is empty. -/
def groupBy : Reader (List Expr) := do
  if ← keywordsIn ["GROUP", "BY"] then
    let groups ← if ← keyword "ALL" then pure [] else commaList (groupItem g)
    whileFound (groupModifier g)
    return groups
  else return []

/-- Read a list of expressions after those words, if they are next. -/
def listAfter (words : List String) : Reader Unit :=
  ignoring (afterAll words (exprs g))

def namedWindow : Reader Unit := do
  ignoring identifier
  expectKeyword "AS"
  if ← symbol "(" then ignoring (windowSpec g)
  else if g.dialect == .generic then ignoring identifier
  else expected "("

/-- Read the named windows and the condition on them, in either order. -/
def windowClauses : Reader Unit := do
  if ← keyword "WINDOW" then
    ignoring (commaList (namedWindow g))
    ignoring (after "QUALIFY" (expr g))
  else if ← keyword "QUALIFY" then
    ignoring (expr g)
    ignoring (after "WINDOW" (commaList (namedWindow g)))

/-- Read how the rows of a hierarchy are connected. -/
def connectBy : Reader Unit := do
  if g.dialect == .mssql || g.dialect == .generic then
    let word := (← peek).keyword
    if word == "START" || word == "CONNECT" then
      if ← keywordsIn ["CONNECT", "BY"] then
        ignoring (commaList g.connection)
        expectKeywords ["START", "WITH"]
        ignoring (expr g)
      else
        expectKeywords ["START", "WITH"]
        ignoring (expr g)
        expectKeywords ["CONNECT", "BY"]
        ignoring (commaList g.connection)

def select : Reader Select := do
  distinctness g
  top g
  let items ← commaList (selectItem g)
  selectInto
  let sources ← after "FROM" (commaList (source g))
  whileFound (lateralView g)
  if g.dialect == .generic then ignoring (after "PREWHERE" (expr g))
  let selection ← after "WHERE" (expr g)
  let groups ← groupBy g
  listAfter g ["CLUSTER", "BY"]
  listAfter g ["DISTRIBUTE", "BY"]
  listAfter g ["SORT", "BY"]
  let having ← after "HAVING" (expr g)
  windowClauses g
  connectBy g
  return .mk items (sources.getD []) selection groups having

end SqlInsight.Grammar
