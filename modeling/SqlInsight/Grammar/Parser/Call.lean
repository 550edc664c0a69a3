/-
Reading calls of functions: their arguments with what may follow these, and the windows that they
range over.
-/
import SqlInsight.Grammar.Parser.Literal

namespace SqlInsight.Grammar

open Reader

inductive Starred where
  | expr (value : Expr)
  | wildcard
  | qualifiedWildcard (name : ObjectName)

def Starred.argument : Starred → Argument
  | .expr e => .positional e
  | _ => .wildcard

variable (g : Level)

def expr : Reader Expr :=
  g.expr 0

def exprs : Reader (List Expr) :=
  commaList (expr g)

def atSubquery : Reader Bool := do
  let word := (← peek).keyword
  return word == "SELECT" || word == "WITH"

def queryInParens : Reader Query :=
  inParens g.query

/-- Read the parts of a dotted name after its first; a star, where one is allowed, ends it. -/
def dottedParts (allowsStar : Bool) : (fuel : Nat) → Reader (List Ident × Bool)
  | 0 => return ([], false)
  | fuel + 1 => do
      if ← symbol "." then
        match ← peek with
        | .word value quote _ =>
            skip
            let (parts, star) ← dottedParts allowsStar fuel
            return (⟨value, quote⟩ :: parts, star)
        | .literal .single value =>
            skip
            let (parts, star) ← dottedParts allowsStar fuel
            return (⟨value, some '\''⟩ :: parts, star)
        | .symbol "*" =>
            if allowsStar then skip; return ([], true)
            else wrongNext "an identifier after '.'"
        | _ => wrongNext "an identifier or a '*' after '.'"
      else return ([], false)

def qualifiedStar? : Reader (Option ObjectName) := do
  let first : Option Ident := match ← peek with
    | .word value quote _ => some ⟨value, quote⟩
    | .literal .single value => some ⟨value, some '\''⟩
    | _ => none
  match first with
  | none => return none
  | some first =>
      if (← peekAt 1).isSymbol "." then
        let start ← get
        skip
        let (parts, star) ← dottedParts true ((← get).length + 1)
        if star then return some (first :: parts)
        else
          set start
          return none
      else return none

def starred : Reader Starred := do
  if ← symbol "*" then return .wildcard
  else
    match ← qualifiedStar? with
    | some name => return .qualifiedWildcard name
    | none => return .expr (← expr g)

def sortOrder : Reader Unit :=
  ignoring (oneOf ["ASC", "DESC"])

def orderItem : Reader OrderItem := do
  let e ← expr g
  sortOrder
  ignoring (anyOf [["NULLS", "FIRST"], ["NULLS", "LAST"]])
  if ← only (g.dialect == .generic) (keywordsIn ["WITH", "FILL"]) then
    let first ← after "FROM" (expr g)
    let last ← after "TO" (expr g)
    let step ← after "STEP" (expr g)
    return .mk e (first.toList ++ last.toList ++ step.toList)
  else return .mk e []

def orderBy : Reader (List OrderItem) := do
  if ← keywordsIn ["ORDER", "BY"] then commaList (orderItem g) else return []

def partitionBy : Reader (List Expr) := do
  if ← keywordsIn ["PARTITION", "BY"] then exprs g else return []

/-- Read how nulls are treated, if that is said. -/
def nullTreatment : Reader Bool := do
  match ← oneOf ["RESPECT", "IGNORE"] with
  | some _ => expectKeyword "NULLS"; return true
  | none => return false

/-- Read what is said about nulls in a call that builds JSON. -/
def jsonNulls : Reader Bool :=
  anyOf [["ABSENT", "ON", "NULL"], ["NULL", "ON", "NULL"]]

/-- Whether an argument of a call may have any expression as its label, as the keys of JSON objects
do. -/
def labelsArguments (d : Dialect) : Bool :=
  d == .mssql || d == .postgres

/-- Read the sign between the name and the value of an argument. -/
def argumentSign : Reader Unit := do
  let d := g.dialect
  if ← keyword "VALUE" then return ()
  else if ← only (d != .mssql) (symbol "=>") then return ()
  else if ← only (d == .generic) (symbol ":=") then return ()
  else if ← only (labelsArguments d) (symbol ":") then return ()
  else expected "argument operator"

/-- Read an argument that an expression may label. -/
def labelledArgument : Reader Argument := do
  match ← starred g with
  | .expr label =>
      let named ← attempt do
        argumentSign g
        starred g
      match named with
      | some (.expr e) => return .labelled label e
      | some _ => return .labelled label (.special "*" [])
      | none => return .positional label
  | star => return star.argument

/-- Read an argument that a name may stand before. -/
def namedArgument : Reader Argument := do
  let named ← attempt do
    let name ← identifier
    argumentSign g
    return (name, ← starred g)
  match named with
  | some (name, .expr e) => return .named name e
  | some _ => return .wildcard
  | none => return (← starred g).argument

def argument : Reader Argument :=
  if labelsArguments g.dialect then labelledArgument g else namedArgument g

/-- Read what is done when an aggregated string gets too long. -/
def overflowClause : Reader (List Expr) := do
  if ← keywordsIn ["ON", "OVERFLOW"] then
    if ← keyword "ERROR" then return []
    else
      expectKeyword "TRUNCATE"
      let refused := "either filler, WITH, or WITHOUT in LISTAGG"
      let filler ← match ← peek with
        | .word _ _ word =>
            if word == "WITH" || word == "WITHOUT" then pure [] else expected refused
        | .literal kind _ =>
            if [.single, .escaped, .unicode, .national, .hex].contains kind then do
              pure [← expr g]
            else expected refused
        | _ => expected refused
      if !(← keyword "WITH") then
        if !(← keyword "WITHOUT") then expected "either WITH or WITHOUT in LISTAGG"
      expectKeyword "COUNT"
      return filler
  else return []

/-- Read the arguments of a call after its parenthesis: the arguments themselves, the other
expressions among them, and whether nulls were spoken of. -/
def arguments : Reader (List Argument × List Expr × Bool) := do
  ignoring jsonNulls
  if ← symbol ")" then return ([], [], false)
  else
    let start ← place
    let all ← keyword "ALL"
    let distinct ← keyword "DISTINCT"
    if all && distinct then failAt "Cannot specify both ALL and DISTINCT" start
    let list ← commaList (argument g)
    let nulls ← if g.dialect == .generic then nullTreatment else pure false
    let order ← orderBy g
    let limit ← after "LIMIT" (expr g)
    let bound ←
      if ← only (g.dialect == .generic) (keyword "HAVING") then do
        ignoring (expectOneOf ["MIN", "MAX"])
        pure [← expr g]
      else pure []
    if g.dialect == .generic || g.dialect == .mysql then
      ignoring (after "SEPARATOR" (value g.dialect))
    let overflow ← overflowClause g
    ignoring jsonNulls
    expectSymbol ")"
    return (list, order.flatMap OrderItem.parts ++ limit.toList ++ bound ++ overflow, nulls)

def frameBound : Reader (List Expr) := do
  if ← keywordsIn ["CURRENT", "ROW"] then return []
  else
    let bound ←
      if ← keyword "UNBOUNDED" then pure []
      else
        match ← peek with
        | .literal .single _ => (fun e => [e]) <$> interval g (g.expr 200)
        | _ => (fun e => [e]) <$> expr g
    if !(← keyword "PRECEDING") then
      if !(← keyword "FOLLOWING") then expected "PRECEDING or FOLLOWING"
    return bound

def frame : Reader (List Expr) := do
  match ← oneOf ["ROWS", "RANGE", "GROUPS"] with
  | none => wrongNext "ROWS, RANGE, GROUPS"
  | some _ =>
      if ← keyword "BETWEEN" then
        let first ← frameBound g
        expectKeyword "AND"
        return first ++ (← frameBound g)
      else frameBound g

/-- Read the description of a window after its parenthesis. -/
def windowSpec : Reader Window := do
  match ← peek with
  | .word _ _ word => if word.isEmpty || !isKeyword word then skip
  | _ => pure ()
  let partition ← partitionBy g
  let order ← orderBy g
  if ← symbol ")" then return .mk partition order []
  else
    let bounds ← frame g
    expectSymbol ")"
    return .mk partition order bounds

/-- Read which rows an aggregate takes, if that is said. A filter without its parts is nothing. -/
def aggregateFilter : Reader (List Expr) := do
  if ← only (g.dialect == .postgres) (keyword "FILTER" <&&> symbol "(" <&&> keyword "WHERE") then
    let condition ← expr g
    expectSymbol ")"
    return [condition]
  else return []

/-- Read the window of a call, if one is given; of one that has a name only the name is read. -/
def overClause : Reader (Option Window) := do
  if ← keyword "OVER" then
    if ← symbol "(" then return some (← windowSpec g)
    else
      ignoring identifier
      return none
  else return none

def call (name : ObjectName) : Reader Expr := do
  expectSymbol "("
  let (first, rest, nulls) ← arguments g
  let (parameters, list, rest, nulls) ←
    if ← only (g.dialect == .generic) (symbol "(") then do
      let (second, more, nulls) ← arguments g
      pure (first.flatMap Argument.parts ++ rest, second, more, nulls)
    else pure ([], first, rest, nulls)
  let group ←
    if ← keywordsIn ["WITHIN", "GROUP"] then
      inParens do
        expectKeywords ["ORDER", "BY"]
        commaList (orderItem g)
    else pure []
  let filter ← aggregateFilter g
  if !nulls then ignoring nullTreatment
  let window ← overClause g
  return .call name parameters list (rest ++ group.flatMap OrderItem.parts ++ filter) window

end SqlInsight.Grammar
