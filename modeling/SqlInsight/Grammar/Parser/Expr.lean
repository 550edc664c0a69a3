/-
Reading expressions: operands with what may follow them, and the operators between them in the order
of their strength. Everything nested is read one level further down. Then the items of a `SELECT`
list: stars with their options, and expressions with their names.
-/
import SqlInsight.Grammar.Parser.Form

namespace SqlInsight.Grammar

open Reader

variable (g : Level)

/-- Read a type and the string that it types; an interval has its own form. A type that is not known
by name types no string, but an array of such a type does. -/
def typedString (operand : Reader Expr) : Reader Expr := do
  match ← typeName g with
  | .interval => interval g operand
  | .custom _ => fail "dummy"
  | .known _ =>
      ignoring (stringText g.dialect)
      return .special "TYPED" []

/-- Read a name that begins with the word given, a column or a call. -/
def nameForm (name : Ident) : Reader Expr := do
  if (← atSymbol ".") || (← atSymbol "(") then
    let (parts, star) ← dottedParts (g.dialect == .postgres) ((← get).length + 1)
    if star then return .special "*" []
    else if ← atSymbol "(" then
      if ← only (g.dialect == .mssql) (symbols ["(", "+", ")"]) then
        match parts with
        | [] => return .special "(+)" [.identifier name]
        | parts => return .special "(+)" [.compound (name :: parts)]
      else call g (name :: parts)
    else return .compound (name :: parts)
  else
    match ← peek with
    | .literal kind _ =>
        if name.value.startsWith "_" && [.single, .double, .hex].contains kind then
          skip
          return .literal
        else return .identifier name
    | _ => return .identifier name

/-- Read the methods called on a value; each is a dot and a call. -/
def methods (subject : Expr) : Reader Expr := do
  if g.dialect == .mssql && (← atSymbol ".") then
    let calls ← attempt <| separatedBy (atSymbol ".") do
      expectSymbol "."
      match ← peek with
      | .word text quote _ => skip; call g [⟨text, quote⟩]
      | _ => expected "identifier"
    match calls with
    | some calls => return .special "." (subject :: calls)
    | none => return subject
  else return subject

/-- Read an expression in parentheses after the first one: a subquery, a tuple or one expression,
with the methods called on it and perhaps a field of it. -/
def parenForm : Reader Expr := do
  let inner ←
    if ← atSubquery then (fun q => Expr.subquery q) <$> g.query
    else do
      match ← exprs g with
      | [e] => pure (.nested e)
      | items => pure (.tuple items)
  expectSymbol ")"
  let subject ← methods g inner
  if ← symbol "." then
    let start ← place
    match ← next with
    | .word _ _ _ => return .special "." [subject]
    | t => failAt ("Expected identifier, found: " ++ t.render) start
  else return subject

/-- Read what may follow any operand: methods and a collation. -/
def operandSuffix (operand : Expr) : Reader Expr := do
  let e ← methods g operand
  if ← keyword "COLLATE" then
    ignoring objectName
    return .collate e
  else return e

/-- Read an operand that begins with a word. What has a form of its own but does not keep to it is
read as a name, if the word may be one. -/
def wordOperand (operand : Reader Expr) : Reader Expr := do
  let wordPlace ← place
  match ← next with
  | .word text quote word =>
      let name : Ident := ⟨text, quote⟩
      let start ← get
      match ← outcome (reservedForm g name word wordPlace operand) with
      | .ok (some e) => operandSuffix g e
      | .ok none => operandSuffix g (← nameForm g name)
      | .error failure =>
          set start
          if reservedAsIdentifier.contains word then refuse failure
          else
            match ← outcome (nameForm g name) with
            | .ok e => return e
            | .error _ =>
                set start
                refuse failure
  | t => expectedAt "an expression" t wordPlace

def symbolOperand (s : String) : Reader Expr := do
  let d := g.dialect
  let refused := "an expression"
  match s with
  | "(" => skip; parenForm g
  | "[" => skip; arrayForm g
  | "-" | "+" => skip; return .unary s (← g.expr (Binding.product.strength d))
  | "!!" | "|/" | "||/" | "~" =>
      if d == .postgres then
        skip
        return .unary s (← g.expr (Binding.sum.strength d))
      else wrongNext refused
  | "@" =>
      if d == .postgres then
        skip
        return .unary s (← g.expr (Binding.sum.strength d))
      else
        ignoring (value d)
        return .literal
  | ":" =>
      ignoring (value d)
      return .literal
  | "\x7b" => braceForm g
  | _ => wrongNext refused

/-- Read an operand. The number bounds how often the value of an interval is an interval. -/
def operand : (fuel : Nat) → Reader Expr
  | 0 => refuse .tooDeep
  | fuel + 1 => do
      let d := g.dialect
      let typed ←
        match ← peek with
        | .word _ _ _ => attempt (typedString g (operand fuel))
        | _ => pure none
      match typed with
      | some e => return e
      | none =>
          match ← peek with
          | .word _ _ _ => wordOperand g (operand fuel)
          | .number _ | .placeholder _ => skip; operandSuffix g .literal
          | .literal kind _ =>
              if kind == .escaped && !d.hasEscapedStrings then wrongNext "an expression"
              else skip; operandSuffix g .literal
          | .symbol s => operandSuffix g (← symbolOperand g s)
          | _ => wrongNext "an expression"

/-- Read the right side of `IN` after the word. -/
def inForm (subject : Expr) : Reader Expr := do
  if ← keyword "UNNEST" then return .inUnnest subject (← inParens (expr g))
  else
    inParens do
      if ← atSubquery then return .inQuery subject (← g.query)
      else return .inList subject (← exprs g)

/-- Read the escape character of a pattern, if one is given. -/
def escapeClause : Reader Unit := do
  ignoring (after "ESCAPE" (stringText g.dialect))

def patternForm (kind : Pattern) (subject : Expr) : Reader Expr := do
  if kind == .like || kind == .ilike then ignoring (keyword "ANY")
  let form ← g.expr (Binding.like.strength g.dialect)
  if kind != .regexp then escapeClause g
  return .pattern kind subject form

/-- Read `IN`, `BETWEEN` or a pattern operator, perhaps negated, with what follows it. -/
def membershipForm (subject : Expr) : Reader Expr := do
  let d := g.dialect
  ignoring (keyword "NOT")
  let regexp ← keyword "REGEXP"
  let rlike ← keyword "RLIKE"
  if regexp || rlike then patternForm g .regexp subject
  else if ← keyword "IN" then inForm g subject
  else if ← keyword "BETWEEN" then
    let low ← g.expr (Binding.between.strength d)
    expectKeyword "AND"
    return .between subject low (← g.expr (Binding.between.strength d))
  else if ← keyword "LIKE" then patternForm g .like subject
  else if ← keyword "ILIKE" then patternForm g .ilike subject
  else if ← keywordsIn ["SIMILAR", "TO"] then patternForm g .similar subject
  else expected "IN or BETWEEN after NOT"

def isForm (subject : Expr) : Reader Expr := do
  if ← keyword "NULL" then return .test subject .isNull
  else if ← keywordsIn ["NOT", "NULL"] then return .test subject .isNotNull
  else if ← keyword "TRUE" then return .test subject .isTrue
  else if ← keywordsIn ["NOT", "TRUE"] then return .test subject .isNotTrue
  else if ← keyword "FALSE" then return .test subject .isFalse
  else if ← keywordsIn ["NOT", "FALSE"] then return .test subject .isNotFalse
  else if ← keyword "UNKNOWN" then return .test subject .isUnknown
  else if ← keywordsIn ["NOT", "UNKNOWN"] then return .test subject .isNotUnknown
  else if ← keywordsIn ["DISTINCT", "FROM"] then return .distinct subject (← expr g)
  else if ← keywordsIn ["NOT", "DISTINCT", "FROM"] then return .distinct subject (← expr g)
  else expected "[NOT] NULL or TRUE|FALSE or [NOT] DISTINCT FROM after IS"

/-- Read a subscript after its bracket: an index, or up to three bounds with colons. -/
def subscriptForm (subject : Expr) : Reader Expr := do
  let bound : Reader (List Expr) := (fun e => [e]) <$> expr g
  let done (parts : List Expr) : Reader Expr := return .special "[" (subject :: parts)
  let low ← if ← symbol ":" then pure [] else bound
  if ← symbol "]" then done low
  else
    if !low.isEmpty then expectSymbol ":"
    if ← symbol "]" then done low
    else
      let high ← bound
      if ← symbol "]" then done (low ++ high)
      else
        expectSymbol ":"
        if ← symbol "]" then done (low ++ high)
        else
          let stride ← bound
          expectSymbol "]"
          done (low ++ high ++ stride)

/-- Read the keys in brackets after the first bracket. -/
def keyAccess (subject : Expr) : Reader Expr := do
  let keys ← separatedBy (symbol "[") do
    let key ← expr g
    expectSymbol "]"
    return key
  return .special "[" (subject :: keys)

/-- Read the operand after an operator that binds with that strength. -/
def rightSide (left : Expr) (operator : String) (strength : Nat) (start : Option Position) :
    Reader Expr := do
  match ← oneOf ["ANY", "ALL", "SOME"] with
  | some _ =>
      let opening ← get
      expectSymbol "("
      let right ←
        if ← atSubquery then do
          set opening
          g.expr strength
        else do
          let e ← g.expr strength
          expectSymbol ")"
          pure e
      if [">", "<", ">=", "<=", "=", "<>"].contains operator then
        return .quantified left operator right
      else
        failAt ("Expected one of [=, >, <, =>, =<, !=] as comparison operator, found: " ++ operator)
          start
  | none => return .binary left operator (← g.expr strength)

/-- Read an operator that binds with that strength, and what follows it. -/
def infixForm (left : Expr) (strength : Nat) : Reader Expr := do
  let d := g.dialect
  let start ← place
  let token ← peek
  let refused : Reader Expr := do
    skip
    failAt ("No infix parser for token " ++ tokenName token) start
  match token with
  | .word _ _ word =>
      match word with
      | "AND" | "OR" | "XOR" => skip; rightSide g left word strength start
      | "OPERATOR" =>
          if d == .postgres || d == .generic then
            skip
            let parts ← inParens (separatedBy (symbol ".") next)
            let name := String.intercalate "." (parts.map Token.render)
            rightSide g left ("OPERATOR(" ++ name ++ ")") strength start
          else refused
      | "DIV" =>
          if d == .mysql then
            skip
            return .binary left word (← expr g)
          else refused
      | "IS" => skip; isForm g left
      | "AT" =>
          skip
          expectKeywords ["TIME", "ZONE"]
          return .special "AT TIME ZONE" [left, ← g.expr strength]
      | "NOT" | "IN" | "BETWEEN" | "LIKE" | "ILIKE" | "SIMILAR" | "REGEXP" | "RLIKE" =>
          membershipForm g left
      | _ => refused
  | .customOperator text => skip; rightSide g left text strength start
  | .symbol s =>
      match symbolOperator? d s with
      | some operator => skip; rightSide g left operator strength start
      | none =>
          if s == "::" then
            skip
            ignoring (typeName g)
            return .cast left
          else if s == "!" && d == .postgres then
            skip
            return .unary "!" left
          else if s == "[" then
            skip
            if d == .postgres || d == .generic then subscriptForm g left else keyAccess g left
          else refused
  | _ => refused

/-- Read operators that bind tighter than `least` after an operand, with what follows them. -/
def operators (least : Nat) (left : Expr) : (fuel : Nat) → Reader Expr
  | 0 => return left
  | fuel + 1 => do
      let strength ← nextStrength g.dialect
      if strength ≤ least then return left
      else operators least (← infixForm g left strength) fuel

/-- Read an expression whose operators bind tighter than `least`. -/
def exprAbove (least : Nat) : Reader Expr := do
  operators g least (← operand g 64) ((← get).length + 1)

def columnRename : Reader Unit := do
  ignoring identifier
  expectKeyword "AS"
  ignoring identifier

/-- Read an expression and the name of the column it replaces. -/
def replacement : Reader Unit := do
  ignoring (expr g)
  ignoring (keyword "AS")
  ignoring identifier

/-- Read what changes the columns that a star stands for; only the generic dialect knows such
changes. -/
def starOptions : Reader Unit := do
  if g.dialect == .generic then
    if ← keyword "ILIKE" then ignoring (singleString "ilike pattern")
    else if ← keyword "EXCLUDE" then
      if ← atSymbol "(" then ignoring (inParens identifiers)
      else ignoring identifier
    if ← keyword "EXCEPT" then
      if ← atSymbol "(" then ignoring (columnList false false)
      else ignoring identifier
    if ← keyword "REPLACE" then
      if ← atSymbol "(" then ignoring (listInParens (replacement g))
      else wrongNext "( after REPLACE but"
    if ← keyword "RENAME" then
      if ← atSymbol "(" then ignoring (listInParens columnRename)
      else columnRename

def namedItem (e : Expr) : Reader Item := do
  match ← aliasUnless reservedAsColumnAlias with
  | some name => return .aliased e name
  | none => return .plain e

def selectItem : Reader Item := do
  match ← starred g with
  | .wildcard => starOptions g; return .wildcard
  | .qualifiedWildcard name => starOptions g; return .qualifiedWildcard name
  | .expr e =>
      match e with
      | .identifier name =>
          if name.quote.isNone && Text.lower name.value.toList == "from".toList then
            failAt ("Expected an expression, found: " ++ name.value) (← place)
          else namedItem e
      | .binary (.identifier name) "=" right =>
          if g.dialect == .mssql then return .aliased right name else namedItem e
      | _ => namedItem e

/-- Read the list of what a change returns, if the word for it is next. -/
def returning : Reader Unit :=
  ignoring (after "RETURNING" (commaList (selectItem g)))

end SqlInsight.Grammar
