/-
Reading the relations of a `FROM` list: tables, subqueries, table functions and joins of these, with
what may follow each of them.
-/
import SqlInsight.Grammar.Parser.Expr
import SqlInsight.Grammar.Parser.RowPattern

namespace SqlInsight.Grammar

open Reader

variable (g : Level)

def Alias.render (given : Alias) : String :=
  if given.columns.isEmpty then given.name.render
  else shownList (given.name.render ++ " ") given.columns

/-- Read the columns that an alias gives, each perhaps with a type, as they are shown. -/
def aliasColumns : Reader (List String) := do
  if ← atSymbol "(" then
    listInParens do
      let name ← identifier
      match ← attempt (typeName g) with
      | some type => return name.render ++ " " ++ type.render
      | none => return name.render
  else return []

def relationAlias : Reader (Option Alias) := do
  match ← aliasUnless reservedAsTableAlias with
  | some name => return some ⟨name, ← aliasColumns g⟩
  | none => return none

/-- Read the alias of a relation of which nothing else is kept. -/
def otherRelation : Reader Factor := do
  return .other (← relationAlias g)

/-- Read the assignments of settings, if the word for them is next. -/
def settings : Reader Bool := do
  if ← only (g.dialect == .generic) (keyword "SETTINGS") then
    ignoring <| commaList do
      ignoring identifier
      expectSymbol "="
      ignoring (value g.dialect)
    return true
  else return false

/-- Read the arguments of a table function after its parenthesis, and the settings that may end
them. -/
def tableArguments : (fuel : Nat) → Reader Unit
  | 0 => expectSymbol ")"
  | fuel + 1 => do
      if ← settings g then expectSymbol ")"
      else
        ignoring (argument g)
        if ← symbol "," then tableArguments fuel else expectSymbol ")"

def rows (allowsEmpty : Bool) : Reader (List Expr) := do
  let entries ← commaList do
    ignoring (keyword "ROW")
    inParens do
      if ← only allowsEmpty (atSymbol ")") then return [] else exprs g
  return entries.flatten

def pivotAggregate : Reader Unit := do
  match ← next with
  | .word name _ _ =>
      ignoring (call g [⟨name, none⟩])
      ignoring (after "AS" identifier)
  | _ => expected "a function identifier"

/-- Read the values that a pivot makes columns of, after their parenthesis. -/
def pivotValues : Reader Unit := do
  if ← keyword "ANY" then ignoring (orderBy g)
  else if ← atSubquery then ignoring g.query
  else
    ignoring <| commaList do
      ignoring (expr g)
      ignoring (after "AS" identifier)

def pivot : Reader Factor := do
  inParens do
    ignoring (commaList (pivotAggregate g))
    expectKeyword "FOR"
    ignoring objectName
    expectKeyword "IN"
    inParens (pivotValues g)
    ignoring (afterAll ["DEFAULT", "ON", "NULL"] (inParens (expr g)))
  otherRelation g

/-- Read the reverse of a pivot after its word. -/
def unpivot : Reader Factor := do
  inParens do
    ignoring identifier
    expectKeyword "FOR"
    ignoring identifier
    expectKeyword "IN"
    ignoring (columnList false false)
  otherRelation g

/-- Read the pivots of a relation; the result of one is a relation of another kind. -/
def pivots (relation : Factor) : (fuel : Nat) → Reader Factor
  | 0 => return relation
  | fuel + 1 => do
      match ← oneOf ["PIVOT", "UNPIVOT"] with
      | some "PIVOT" => pivots (← pivot g) fuel
      | some _ => pivots (← unpivot g) fuel
      | none => return relation

/-- Read the hints on a table. A `WITH` that no parenthesis follows is not one of them. -/
def tableHints : Reader Unit := do
  if (← atKeyword "WITH") && (← peekAt 1).isSymbol "(" then
    skip
    ignoring (listInParens (expr g))

/-- Read a table or a call of a table function, with its pivots and the matches of its rows. -/
def namedTable : Reader Factor := do
  let d := g.dialect
  let name ← objectName
  if ← only (d == .mysql || d == .generic) (keyword "PARTITION") then
    ignoring (inParens identifiers)
  if ← only (d == .mssql) (keywordsIn ["FOR", "SYSTEM_TIME", "AS", "OF"]) then ignoring (expr g)
  let isCall ← symbol "("
  if isCall then
    if !(← symbol ")") then tableArguments g ((← get).length + 1)
  ignoring (keywordsIn ["WITH", "ORDINALITY"])
  let alias? ← relationAlias g
  tableHints g
  let relation ← pivots g (.table name alias? isCall) ((← get).length + 1)
  if ← only (d == .generic) (keyword "MATCH_RECOGNIZE") then
    rowMatch g
    otherRelation g
  else return relation

/-- Read a subquery as a relation after its parenthesis. -/
def derivedTable : Reader Factor := do
  let query ← g.query
  expectSymbol ")"
  return .derived query (← relationAlias g)

/-- Read a relation computed from what stands before it, after its word. -/
def lateralTable : Reader Factor := do
  if ← symbol "(" then derivedTable g
  else
    ignoring objectName
    ignoring (inParens (listUpTo ")" (argument g)))
    otherRelation g

/-- Read an array as a relation after its word. The word `WITH` is taken even if it says nothing
about offsets. -/
def unnestTable : Reader Factor := do
  ignoring (listInParens (expr g))
  ignoring (keywordsIn ["WITH", "ORDINALITY"])
  let alias? ← relationAlias g
  let offset ← tolerate (expectKeywords ["WITH", "OFFSET"])
  if offset.isSome then ignoring (aliasUnless reservedAsColumnAlias)
  return .other alias?

/-- Read what a column of a JSON table is without a value or with an invalid one, if that is
said. -/
def jsonFallback : Reader Bool := do
  let found ←
    if (← oneOf ["NULL", "ERROR"]).isSome then pure true
    else if ← keyword "DEFAULT" then do
      ignoring (value g.dialect)
      pure true
    else pure false
  if found then
    expectKeyword "ON"
    if !(← keyword "EMPTY") then expectKeyword "ERROR"
  return found

def jsonColumn : (fuel : Nat) → Reader Unit
  | 0 => refuse .tooDeep
  | fuel + 1 => do
      if ← keyword "NESTED" then
        ignoring (keyword "PATH")
        ignoring (value g.dialect)
        expectKeyword "COLUMNS"
        ignoring (listInParens (jsonColumn fuel))
      else
        ignoring identifier
        if ← keyword "FOR" then expectKeyword "ORDINALITY"
        else
          ignoring (typeName g)
          ignoring (keyword "EXISTS")
          expectKeyword "PATH"
          ignoring (value g.dialect)
          whileFound (jsonFallback g)

/-- Read a JSON document as a relation after its word. -/
def jsonTable : Reader Factor := do
  inParens do
    ignoring (expr g)
    expectSymbol ","
    ignoring (value g.dialect)
    expectKeyword "COLUMNS"
    ignoring (listInParens (jsonColumn g ((← get).length + 1)))
  otherRelation g

/-- Read an opened JSON document as a relation after its word. -/
def openJsonTable : Reader Factor := do
  inParens do
    ignoring (expr g)
    if ← symbol "," then ignoring (value g.dialect)
  if ← keyword "WITH" then
    ignoring <| listInParens do
      ignoring identifier
      ignoring (typeName g)
      match ← peek with
      | .literal .single _ => skip
      | _ => pure ()
      if ← keyword "AS" then expectKeyword "JSON"
  otherRelation g

/-- Read how the relations of a join are matched; a natural join matches them by name. -/
def joinCondition (isNatural : Bool) : Reader (Option Expr) := do
  if isNatural then return none
  else if ← keyword "ON" then return some (← expr g)
  else if ← keyword "USING" then
    ignoring (columnList false false)
    return none
  else return none

/-- Read the words of a join that may have a condition; none if no join is next. -/
def joinWords (isNatural : Bool) : Reader (Option JoinKind) := do
  let word := (← peek).keyword
  match word with
  | "INNER" | "JOIN" =>
      ignoring (keyword "INNER")
      expectKeyword "JOIN"
      return some .inner
  | "LEFT" | "RIGHT" =>
      skip
      let outer : JoinKind := if word == "LEFT" then .leftOuter else .rightOuter
      match ← oneOf ["OUTER", "SEMI", "ANTI", "JOIN"] with
      | some "OUTER" => expectKeyword "JOIN"; return some outer
      | some "SEMI" => expectKeyword "JOIN"; return some .semi
      | some "ANTI" => expectKeyword "JOIN"; return some .anti
      | some _ => return some outer
      | none => fail ("expected OUTER, SEMI, ANTI or JOIN after " ++ word)
  | "ANTI" => skip; expectKeyword "JOIN"; return some .anti
  | "SEMI" => skip; expectKeyword "JOIN"; return some .semi
  | "FULL" =>
      skip
      ignoring (keyword "OUTER")
      expectKeyword "JOIN"
      return some .fullOuter
  | "OUTER" => expected "LEFT, RIGHT, or FULL"
  | _ => if isNatural then expected "a join type after NATURAL" else return none

/-- Read a join, if one is next; `relation` reads a relation. -/
def join? (relation : Reader Factor) : Reader (Option Join) := do
  ignoring (keyword "GLOBAL")
  if ← keyword "CROSS" then
    if ← keyword "JOIN" then return some (.mk (← relation) .cross none)
    else if ← keyword "APPLY" then return some (.mk (← relation) .crossApply none)
    else expected "JOIN or APPLY after CROSS"
  else if ← keyword "OUTER" then
    expectKeyword "APPLY"
    return some (.mk (← relation) .outerApply none)
  else if ← keyword "ASOF" then
    expectKeyword "JOIN"
    let joined ← relation
    expectKeyword "MATCH_CONDITION"
    ignoring (inParens (expr g))
    ignoring (joinCondition g false)
    return some (.mk joined .asOf none)
  else
    let isNatural ← keyword "NATURAL"
    match ← joinWords isNatural with
    | some kind =>
        let joined ← relation
        return some (.mk joined kind (← joinCondition g isNatural))
    | none => return none

def sourceOf (relation : Reader Factor) : Reader Source := do
  let first ← relation
  return .mk first (← manyOf (join? g relation))

/-- Give a relation that has stood in parentheses the alias after them. -/
def Factor.withAlias (given : Alias) : Factor → Reader Factor
  | .table name none isCall => return .table name (some given) isCall
  | .derived query none => return .derived query (some given)
  | .other none => return .other (some given)
  | .table _ (some inner) _ | .derived _ (some inner) | .other (some inner) =>
      fail ("duplicate alias " ++ inner.render)
  | .nested source => return .nested source

/-- Read a relation in parentheses after the first one: a subquery, or a join of relations. -/
def nestedTable (relation : Reader Factor) : Reader Factor := do
  match ← attempt (derivedTable g) with
  | some derived => pivots g derived ((← get).length + 1)
  | none =>
      let source ← sourceOf g relation
      match source with
      | .mk (.nested _) [] | .mk _ (_ :: _) =>
          expectSymbol ")"
          ignoring (relationAlias g)
          return .nested source
      | .mk lone [] =>
          if g.dialect == .generic then
            expectSymbol ")"
            match ← relationAlias g with
            | some given => lone.withAlias given
            | none => return lone
          else expected "joined table"

/-- Read a relation. The number bounds how deep parentheses nest. -/
def factor : (fuel : Nat) → Reader Factor
  | 0 => refuse .tooDeep
  | fuel + 1 => do
      let d := g.dialect
      let called := (← peekAt 1).isSymbol "("
      let word := (← peek).keyword
      if ← keyword "LATERAL" then lateralTable g
      else if ← keyword "TABLE" then
        ignoring (inParens (expr g))
        otherRelation g
      else if ← symbol "(" then nestedTable g (factor fuel)
      else if d == .generic && word == "VALUES" && called then
        skip
        let entries ← rows g false
        return .derived (.mk [] (.values entries) []) (← relationAlias g)
      else if ← only (d == .postgres || d == .generic) (keyword "UNNEST") then unnestTable g
      else if word == "JSON_TABLE" && called then skip; jsonTable g
      else if word == "OPENJSON" && called then skip; openJsonTable g
      else namedTable g

def source : Reader Source := do
  let bound := (← get).length + 1
  sourceOf g (factor g bound)

end SqlInsight.Grammar
