/-
Reading the statements that change rows: `INSERT`, `UPDATE`, `DELETE` and `MERGE`.
-/
import SqlInsight.Grammar.Parser.Expr
import SqlInsight.Grammar.Parser.Relation

namespace SqlInsight.Grammar

open Reader

variable (g : Level)

/-- Read what is done about rows that are there already, if that is said. -/
def conflictClause : Reader Unit := do
  let ways := ["REPLACE", "ROLLBACK", "ABORT", "FAIL", "IGNORE"]
  if (← atKeyword "OR") && ways.contains (← peekAt 1).keyword then
    skip
    skip
  else ignoring (keyword "REPLACE")

/-- Read an assignment to a column, or to some columns in parentheses. -/
def assignment : Reader Assignment := do
  let targets ←
    if ← atSymbol "(" then listInParens objectName
    else do pure [← objectName]
  expectSymbol "="
  return ⟨targets, ← expr g⟩

def assignments : Reader (List Assignment) :=
  commaList (assignment g)

/-- Read what is done when an inserted row is there already, if that is said. -/
def insertConflict : Reader Unit := do
  if ← keyword "ON" then
    if ← keyword "CONFLICT" then
      if ← keywordsIn ["ON", "CONSTRAINT"] then ignoring objectName
      else if ← atSymbol "(" then ignoring (columnList false false)
      expectKeyword "DO"
      if !(← keyword "NOTHING") then
        expectKeywords ["UPDATE", "SET"]
        ignoring (assignments g)
        ignoring (after "WHERE" (expr g))
    else
      expectKeywords ["DUPLICATE", "KEY", "UPDATE"]
      ignoring (assignments g)

def atNestedSelect : Reader Bool := do
  return (← atSymbol "(") && (← peekAt 1).keyword == "SELECT"

/-- Read the partition of a table that is meant, if one is given. -/
def partition : Reader Unit :=
  ignoring (after "PARTITION" (listInParens (expr g)))

/-- Read the columns and the rows of an insertion after its table. -/
def insertRows : Reader (List Ident × Option Query) := do
  if ← keywordsIn ["DEFAULT", "VALUES"] then return ([], none)
  else
    let columns ←
      if ← atNestedSelect then pure []
      else do
        let columns ← columnList true (g.dialect == .mysql)
        partition g
        pure columns
    return (columns, some (← g.query))

def fileFormat : Reader Unit := do
  let formats :=
    ["AVRO", "JSONFILE", "ORC", "PARQUET", "RCFILE", "SEQUENCEFILE", "TEXTFILE"]
  match ← oneOf formats with
  | some _ => return ()
  | none => wrongNext "fileformat"

/-- Read an insertion after its word. -/
def insertStatement : Reader Statement := do
  let d := g.dialect
  conflictClause
  if d == .mysql || d == .generic then
    ignoring (oneOf ["LOW_PRIORITY", "DELAYED", "HIGH_PRIORITY"])
    ignoring (keyword "IGNORE")
  ignoring (keyword "OVERWRITE")
  ignoring (keyword "INTO")
  ignoring (keyword "LOCAL")
  if ← keyword "DIRECTORY" then
    ignoring (stringText d)
    ignoring (afterAll ["STORED", "AS"] fileFormat)
    ignoring g.query
    return .other
  else
    ignoring (keyword "TABLE")
    let table ← objectName
    if d == .postgres then ignoring (after "AS" identifier)
    let (columns, source) ← insertRows g
    if ← only (d == .mysql || d == .generic) (keyword "AS") then
      ignoring objectName
      ignoring (columnList true false)
    insertConflict g
    returning g
    return .insert table columns source

/-- Read a replacement of rows after its word. -/
def replaceStatement : Reader Statement := do
  if g.dialect == .mysql || g.dialect == .generic then insertStatement g
  else failAt "Unsupported statement REPLACE" (← place)

def updateStatement : Reader Statement := do
  conflictClause
  let target ← source g
  expectKeyword "SET"
  let assignments ← assignments g
  if ← keyword "FROM" then
    if g.dialect != .mysql then ignoring (source g)
  let selection ← after "WHERE" (expr g)
  returning g
  return .update target assignments selection

/-- Read how many rows at most; any number after `ALL`. -/
def limit : Reader Bool := do
  if ← keyword "ALL" then return false
  else
    ignoring (expr g)
    return true

/-- Read a deletion after its word. -/
def deleteStatement : Reader Statement := do
  if !(← keyword "FROM") then
    if g.dialect != .generic then
      ignoring (commaList objectName)
      expectKeyword "FROM"
  let sources ← commaList (source g)
  ignoring (after "USING" (commaList (source g)))
  let selection ← after "WHERE" (expr g)
  returning g
  ignoring (orderBy g)
  ignoring (after "LIMIT" (limit g))
  return .delete sources selection

inductive MergeMatch where
  | matched
  | notMatched
  | notMatchedByTarget
  | notMatchedBySource
deriving Repr, DecidableEq

def MergeMatch.words : MergeMatch → String
  | .matched => "MATCHED"
  | .notMatched => "NOT MATCHED"
  | .notMatchedByTarget => "NOT MATCHED BY TARGET"
  | .notMatchedBySource => "NOT MATCHED BY SOURCE"

/-- Whether the rows are missing in the target, so that only an insertion makes sense. -/
def MergeMatch.isMissing : MergeMatch → Bool
  | .notMatched | .notMatchedByTarget => true
  | _ => false

/-- Read the rows that a clause is about after `WHEN`. -/
def mergeMatch : Reader MergeMatch := do
  let negated ← keyword "NOT"
  expectKeyword "MATCHED"
  if !negated then return .matched
  else if ← keywordsIn ["BY", "SOURCE"] then return .notMatchedBySource
  else if ← keywordsIn ["BY", "TARGET"] then return .notMatchedByTarget
  else return .notMatched

def mergeAction (rowsOf : MergeMatch) : Reader Unit := do
  let refuse (word : String) : Reader Unit :=
    fail (word ++ " is not allowed in a " ++ rowsOf.words ++ " merge clause")
  match ← oneOf ["UPDATE", "INSERT", "DELETE"] with
  | some "UPDATE" =>
      if rowsOf.isMissing then refuse "UPDATE"
      else
        expectKeyword "SET"
        ignoring (assignments g)
  | some "DELETE" => if rowsOf.isMissing then refuse "DELETE"
  | some _ =>
      if !rowsOf.isMissing then refuse "INSERT"
      else
        ignoring (columnList true (g.dialect == .mysql))
        if !(← only (g.dialect == .generic) (keyword "ROW")) then
          expectKeyword "VALUES"
          ignoring (rows g (g.dialect == .mysql))
  | none => fail "expected UPDATE, DELETE or INSERT in merge clause"

/-- Read a clause of a `MERGE`; none where the statement ends. -/
def mergeClause? : Reader (Option Unit) := do
  match ← peek with
  | .endOfText | .symbol ";" => return none
  | _ =>
      expectKeyword "WHEN"
      let rowsOf ← mergeMatch
      ignoring (after "AND" (expr g))
      expectKeyword "THEN"
      mergeAction g rowsOf
      return some ()

def mergeStatement : Reader Statement := do
  ignoring (keyword "INTO")
  let bound := (← get).length + 1
  ignoring (factor g bound)
  expectKeyword "USING"
  ignoring (factor g bound)
  expectKeyword "ON"
  ignoring (expr g)
  ignoring (manyOf (mergeClause? g))
  return .other

end SqlInsight.Grammar
