/-
Reading the definitions of functions, procedures, macros and triggers. An object that a dialect does
not know is refused at the word that names it.
-/
import SqlInsight.Grammar.Parser.TypeName

namespace SqlInsight.Grammar

open Reader

variable (g : Level)

/-- Read an argument of a function. A type that is not known was its name, so a type follows. -/
def functionArgument : Reader Unit := do
  ignoring (oneOf ["IN", "OUT", "INOUT"])
  if (← typeName g).isCustom then ignoring (typeName g)
  if ← (keyword "DEFAULT" <||> symbol "=") then ignoring (expr g)

/-- Read a function by its name and the types of its arguments. -/
def functionDescription : Reader Unit := do
  ignoring objectName
  if ← symbol "(" then
    if !(← symbol ")") then
      ignoring (commaList (functionArgument g))
      expectSymbol ")"

def functionText : Reader Unit := do
  match ← peek with
  | .literal (.dollar _) _ => skip
  | _ => ignoring (stringText g.dialect)

inductive FunctionPart where
  | body
  | language
  | volatility
  | nullInput
  | parallel
deriving Repr, DecidableEq

/-- Read what is said about parallel calls after the word. -/
def parallelSafety : Reader Unit := do
  if (← oneOf ["UNSAFE", "RESTRICTED", "SAFE"]).isNone then
    expected "one of UNSAFE | RESTRICTED | SAFE"

/-- Read the words that begin a part of the definition of a function: the part, the words as a
message shows them, and the reader of what follows. -/
def functionPart? : Reader (Option (FunctionPart × String × Reader Unit)) := do
  if ← keyword "AS" then return some (.body, "AS", functionText g)
  else if ← keyword "LANGUAGE" then
    return some (.language, "LANGUAGE", ignoring identifier)
  else if (← oneOf ["IMMUTABLE", "STABLE", "VOLATILE"]).isSome then
    return some (.volatility, "IMMUTABLE | STABLE | VOLATILE", return ())
  else if ← anyOf
      [["CALLED", "ON", "NULL", "INPUT"], ["RETURNS", "NULL", "ON", "NULL", "INPUT"], ["STRICT"]]
  then
    return some
      (.nullInput, "CALLED ON NULL INPUT | RETURNS NULL ON NULL INPUT | STRICT", return ())
  else if ← keyword "PARALLEL" then
    return some (.parallel, "PARALLEL \x7b UNSAFE | RESTRICTED | SAFE \x7d", parallelSafety)
  else if ← keyword "RETURN" then return some (.body, "RETURN", ignoring (expr g))
  else return none

/-- Read the parts of the definition of a function, each at most once. -/
def functionParts (seen : List FunctionPart) : (fuel : Nat) → Reader Unit
  | 0 => return ()
  | fuel + 1 => do
      match ← functionPart? g with
      | none => return ()
      | some (part, words, rest) =>
          if seen.contains part then fail (words ++ " specified more than once")
          rest
          functionParts (part :: seen) fuel

def createFunction : Reader Unit := do
  if g.dialect == .postgres || g.dialect == .generic then
    skip
    ignoring objectName
    ignoring (inParens (listUpTo ")" (functionArgument g)))
    ignoring (after "RETURNS" (typeName g))
    functionParts g [] ((← get).length + 1)
  else expected "an object type after CREATE"

def triggerPeriod : Reader Unit := do
  if (← expectOneOf ["BEFORE", "AFTER", "INSTEAD"]) == "INSTEAD" then expectKeyword "OF"

def triggerEvent : Reader Unit := do
  if (← expectOneOf ["INSERT", "UPDATE", "DELETE", "TRUNCATE"]) == "UPDATE" then
    ignoring (after "OF" identifiers)

/-- Read a name for the rows before or after the event. The first word is taken even if it begins no
such name. -/
def transitionTable : Reader Bool := do
  if (← oneOf ["OLD", "NEW"]).isSome then
    if ← keyword "TABLE" then
      ignoring (keyword "AS")
      ignoring objectName
      return true
    else return false
  else return false

def hasTriggers (d : Dialect) : Bool :=
  d == .postgres || d == .generic

def createTrigger : Reader Unit := do
  if hasTriggers g.dialect then
    skip
    ignoring objectName
    triggerPeriod
    ignoring (separatedBy (keyword "OR") triggerEvent)
    expectKeyword "ON"
    ignoring objectName
    ignoring (after "FROM" (tolerate objectName))
    constraintTraits
    ignoring (after "REFERENCING" (whileFound transitionTable))
    expectKeyword "FOR"
    ignoring (keyword "EACH")
    ignoring (expectOneOf ["ROW", "STATEMENT"])
    ignoring (after "WHEN" (expr g))
    expectKeyword "EXECUTE"
    ignoring (expectOneOf ["FUNCTION", "PROCEDURE"])
    functionDescription g
  else expected "an object type after CREATE"

def macroArgument : Reader Unit := do
  ignoring identifier
  if ← (symbol ":=" <||> symbol "=>") then ignoring (expr g)

def createMacro : Reader Unit := do
  if g.dialect == .generic then
    skip
    ignoring objectName
    ignoring (inParens (listUpTo ")" (macroArgument g)))
    expectKeyword "AS"
    if ← keyword "TABLE" then ignoring g.query else ignoring (expr g)
  else expected "an object type after CREATE"

/-- Read the parameters of a procedure after the parenthesis; a comma may end them. -/
def procedureParameters : (fuel : Nat) → Reader Unit
  | 0 => refuse .tooDeep
  | fuel + 1 => do
      match ← peek with
      | .word _ _ _ =>
          ignoring identifier
          ignoring (typeName g)
      | _ => pure ()
      let comma ← symbol ","
      if ← symbol ")" then return ()
      else if comma then procedureParameters fuel
      else expected "',' or ')' after parameter definition"

/-- Read the definition of a procedure after its word. -/
def createProcedure : Reader Unit := do
  ignoring objectName
  if ← symbol "(" then
    if !(← symbol ")") then procedureParameters g ((← get).length + 1)
  expectKeywords ["AS", "BEGIN"]
  ignoring (statements g)
  expectKeyword "END"

end SqlInsight.Grammar
