/-
Reading the statements by which a server and its tables are looked after. Nothing of them is kept.
-/
import SqlInsight.Grammar.Parser.Constraint

namespace SqlInsight.Grammar

open Reader

variable (g : Level)

/-- Read what is said about an analysis of a table, if something is next. -/
def analysisPart : Reader Bool := do
  match ← oneOf ["PARTITION", "FOR", "CACHE", "NOSCAN", "COMPUTE"] with
  | some "PARTITION" => exprsInParens g; return true
  | some "FOR" =>
      expectKeyword "COLUMNS"
      ignoring (attempt identifiers)
      return true
  | some "CACHE" => expectKeyword "METADATA"; return true
  | some "COMPUTE" => expectKeyword "STATISTICS"; return true
  | some _ => return true
  | none => return false

/-- Read an analysis of a table after its word. -/
def analyzeStatement : Reader Unit := do
  expectKeyword "TABLE"
  ignoring objectName
  whileFound (analysisPart g)

def cachedQuery : Reader Unit := do
  match ← peek with
  | .word _ _ _ =>
      ignoring (keyword "AS")
      ignoring g.query
  | _ => expected "a QUERY statement"

def cachedTable : Reader Unit := do
  ignoring objectName
  optionsAfter g "OPTIONS"
  if !(← get).isEmpty then cachedQuery g

/-- Read the caching of a table after its word. A text that ends before the table is refused at the
last part of what stands there in its place. -/
def cacheStatement : Reader Unit := do
  if ← keyword "TABLE" then cachedTable g
  else
    let start ← get
    ignoring objectName
    if ← keyword "TABLE" then cachedTable g
    else
      let what := "a \x60TABLE\x60 keyword"
      match (← get).isEmpty, start.getLast? with
      | true, some (last, place) => expectedAt what last (some place)
      | _, _ => expected what

/-- Read the removal of a table from the cache after its word. -/
def uncacheStatement : Reader Unit := do
  expectKeyword "TABLE"
  ignoring ifExists
  ignoring objectName

/-- Read the names of flushed tables and what is done with them, up to a token that is no word; that
token is taken too. -/
def flushedTables : (fuel : Nat) → Reader Unit
  | 0 => return ()
  | fuel + 1 => do
      match ← peek with
      | .word _ _ word =>
          if word == "WITH" then
            skip
            ignoring (keywordsIn ["READ", "LOCK"])
          else if word == "FOR" then
            skip
            ignoring (keyword "EXPORT")
          else if word.isEmpty || !isKeyword word then ignoring (commaList objectName)
          else skip
          flushedTables fuel
      | _ => skip

/-- Read what is flushed. -/
def flushed : Reader Unit := do
  let plain :=
    [["BINARY", "LOGS"], ["ENGINE", "LOGS"], ["ERROR", "LOGS"], ["GENERAL", "LOGS"], ["HOSTS"],
      ["PRIVILEGES"], ["OPTIMIZER_COSTS"], ["SLOW", "LOGS"], ["STATUS"], ["USER_RESOURCES"],
      ["LOGS"]]
  if ← anyOf plain then return ()
  else if ← keywordsIn ["RELAY", "LOGS"] then
    ignoring (afterAll ["FOR", "CHANNEL"] objectName)
  else if ← keyword "TABLES" then flushedTables ((← get).length + 1)
  else
    expected <|
      "BINARY LOGS, ENGINE LOGS, ERROR LOGS, GENERAL LOGS, HOSTS, LOGS, PRIVILEGES, "
        ++ "OPTIMIZER_COSTS,RELAY LOGS [FOR CHANNEL channel], SLOW LOGS, STATUS, USER_RESOURCES"

def flushStatement : Reader Unit := do
  if g.dialect == .mysql || g.dialect == .generic then
    ignoring (oneOf ["NO_WRITE_TO_BINLOG", "LOCAL"])
    flushed
  else failAt "Unsupported statement FLUSH" (← place)

/-- Read the end of a connection or of what it does, after the word. -/
def killStatement : Reader Unit := do
  let kind ← oneOf ["CONNECTION", "QUERY", "MUTATION"]
  ignoring wholeNumber
  if kind == some "MUTATION" && g.dialect != .generic then
    expected "Unsupported type for KILL, allowed: CONNECTION | QUERY"

/-- Read the repair of a table after its word. -/
def repairStatement : Reader Unit := do
  ignoring (keyword "REPAIR")
  expectKeyword "TABLE"
  ignoring objectName
  ignoring <| attempt do
    ignoring (oneOf ["ADD", "DROP", "SYNC"])
    expectKeyword "PARTITIONS"

/-- Read the optimisation of a table after its word. -/
def optimizeStatement : Reader Unit := do
  expectKeyword "TABLE"
  ignoring objectName
  onCluster
  if ← keyword "PARTITION" then
    if ← keyword "ID" then ignoring identifier else ignoring (expr g)
  ignoring (keyword "FINAL")
  ignoring (after "DEDUPLICATE" (after "BY" (expr g)))

def discardStatement : Reader Unit := do
  if (← oneOf ["ALL", "PLANS", "SEQUENCES", "TEMP", "TEMPORARY"]).isNone then
    expected "ALL, PLANS, SEQUENCES, TEMP or TEMPORARY after DISCARD"

def lockedTable : Reader Unit := do
  ignoring identifier
  ignoring (aliasUnless ["READ", "WRITE", "LOW_PRIORITY"])
  if ← keyword "READ" then ignoring (keyword "LOCAL")
  else if !(← anyOf [["WRITE"], ["LOW_PRIORITY", "WRITE"]]) then
    expected "an lock type in LOCK TABLES"

/-- Read a comment on an object after its word. -/
def commentStatement : Reader Unit := do
  ignoring ifExists
  expectKeyword "ON"
  let kinds := ["COLUMN", "TABLE", "EXTENSION", "SCHEMA", "DATABASE", "USER", "ROLE"]
  if (← oneOf kinds).isNone then wrongNext "comment object_type"
  ignoring objectName
  expectKeyword "IS"
  if !(← keyword "NULL") then ignoring (stringText g.dialect)

/-- Read the end of listening to a channel, or to all of them, after the word. -/
def unlistenStatement : Reader Unit := do
  if !(← symbol "*") then
    if (← attempt identifier).isNone then expected "wildcard or identifier"

/-- Read a message to a channel after the word. -/
def notifyStatement : Reader Unit := do
  ignoring identifier
  if ← symbol "," then ignoring (stringText g.dialect)

end SqlInsight.Grammar
