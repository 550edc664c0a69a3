/-
Reading how the rows of a relation are matched against a pattern: what the rows are partitioned and
ordered by, the pattern in its own small notation, and what its symbols stand for.
-/
import SqlInsight.Grammar.Parser.Call

namespace SqlInsight.Grammar

open Reader

variable (g : Level)

/-- Read one measure of a match: an expression and its name. -/
def measure : Reader Unit := do
  ignoring (expr g)
  ignoring (keyword "AS")
  ignoring identifier

/-- Read how many rows a match gives, if that is said. -/
def rowsPerMatch : Reader Unit := do
  if !(← keywordsIn ["ONE", "ROW", "PER", "MATCH"]) then
    if ← keywordsIn ["ALL", "ROWS", "PER", "MATCH"] then
      ignoring <| anyOf
        [["SHOW", "EMPTY", "MATCHES"], ["OMIT", "EMPTY", "MATCHES"], ["WITH", "UNMATCHED", "ROWS"]]

/-- Read where the search goes on after a match, if that is said. -/
def afterMatch : Reader Unit := do
  if ← keywordsIn ["AFTER", "MATCH", "SKIP"] then
    if !(← anyOf [["PAST", "LAST", "ROW"], ["TO", "NEXT", "ROW"]]) then
      if ← anyOf [["TO", "FIRST"], ["TO", "LAST"]] then ignoring identifier
      else wrongNext "after match skip option"

/-- Read how often a symbol is repeated after the brace: `n`, `n,`, `,m` or `n,m`. -/
def repetitionBounds : Reader Unit := do
  let start ← place
  let count (digits : String) : Reader Unit := ignoring (numberIn Range.short digits start)
  match ← next with
  | .symbol "," =>
      match ← peek with
      | .number most =>
          skip
          expectSymbol "\x7d"
          count most
      | _ => wrongNext "literal number"
  | .number least =>
      if ← symbol "," then
        match ← peek with
        | .number most =>
            skip
            expectSymbol "\x7d"
            count least
            count most
        | .symbol "\x7d" => skip; count least
        | _ => wrongNext "\x7d or upper bound"
      else
        expectSymbol "\x7d"
        count least
  | t => expectedAt "quantifier range" t start

/-- Read a repetition of what stands before it, if one is next. -/
def repetition : Reader Bool := do
  match ← peek with
  | .symbol "*" | .symbol "+" | .placeholder "?" => skip; return true
  | .symbol "\x7b" => skip; repetitionBounds; return true
  | _ => return false

/-- Read a symbol of a pattern or a group; `pattern` reads what a group holds. -/
def patternOperand (pattern : Reader Unit) : Reader Unit := do
  match ← peek with
  | .symbol "^" | .placeholder "$" => skip
  | .symbol "\x7b" =>
      skip
      expectSymbol "-"
      ignoring identifier
      expectSymbol "-"
      expectSymbol "\x7d"
  | .symbol "(" => inParens pattern
  | .word "PERMUTE" none _ => skip; ignoring (inParens identifiers)
  | _ => ignoring identifier

/-- Read symbols, each perhaps repeated, as long as no parenthesis or bar ends them. -/
def patternSequence (pattern : Reader Unit) : (fuel : Nat) → Reader Unit
  | 0 => refuse .tooDeep
  | fuel + 1 => do
      patternOperand pattern
      whileFound repetition
      match ← peek with
      | .symbol ")" | .symbol "|" => return ()
      | _ => patternSequence pattern fuel

/-- Read a pattern: sequences with bars between them. The number bounds how deep groups nest. -/
def rowPattern : (fuel : Nat) → Reader Unit
  | 0 => refuse .tooDeep
  | fuel + 1 => do
      patternSequence (rowPattern fuel) ((← get).length + 1)
      if ← symbol "|" then rowPattern fuel

def symbolDefinition : Reader Unit := do
  ignoring identifier
  expectKeyword "AS"
  ignoring (expr g)

def rowMatch : Reader Unit :=
  inParens do
    ignoring (partitionBy g)
    ignoring (orderBy g)
    ignoring (after "MEASURES" (commaList (measure g)))
    rowsPerMatch
    afterMatch
    expectKeyword "PATTERN"
    inParens (rowPattern ((← get).length + 1))
    expectKeyword "DEFINE"
    ignoring (commaList (symbolDefinition g))

end SqlInsight.Grammar
