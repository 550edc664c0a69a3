/-
Reading a statement: its first word tells what follows. Of most statements nothing is kept.
-/
import SqlInsight.Grammar.Parser.Alteration
import SqlInsight.Grammar.Parser.Control
import SqlInsight.Grammar.Parser.Definition
import SqlInsight.Grammar.Parser.Removal
import SqlInsight.Grammar.Parser.Transfer
import SqlInsight.Grammar.Parser.Upkeep
import SqlInsight.Grammar.Parser.Variable

namespace SqlInsight.Grammar

open Reader

variable (g : Level)

def changeAfter? (word : String) : Option (Reader Statement) :=
  match word with
  | "INSERT" => some (insertStatement g)
  | "REPLACE" => some (replaceStatement g)
  | "UPDATE" => some (updateStatement g)
  | "DELETE" => some (deleteStatement g)
  | "MERGE" => some (mergeStatement g)
  | _ => none

def controlAfter? (word : String) : Option (Reader Unit) :=
  match word with
  | "ASSERT" => some (assertStatement g)
  | "BEGIN" => some (beginStatement g)
  | "CALL" => some (callStatement g)
  | "CLOSE" => some closeStatement
  | "DEALLOCATE" => some deallocateStatement
  | "DECLARE" => some (declareStatement g)
  | "DESC" | "DESCRIBE" | "EXPLAIN" => some (explainStatement g word)
  | "END" | "COMMIT" => some endStatement
  | "EXEC" | "EXECUTE" => some (executeStatement g)
  | "FETCH" => some (fetchStatement g)
  | "PRAGMA" => some (pragmaStatement g)
  | "PREPARE" => some (prepareStatement g)
  | "RELEASE" => some releaseStatement
  | "ROLLBACK" => some rollbackStatement
  | "SAVEPOINT" => some (ignoring identifier)
  | "SET" => some (setStatement g)
  | "SHOW" => some (showStatement g)
  | "START" => some startStatement
  | "USE" => some (ignoring objectName)
  | _ => none

def storeAfter? (word : String) : Option (Reader Unit) :=
  match word with
  | "ALTER" => some (alterStatement g)
  | "ANALYZE" => some (analyzeStatement g)
  | "ATTACH" => some (attachStatement g)
  | "CACHE" => some (cacheStatement g)
  | "COPY" => some (copyStatement g)
  | "CREATE" => some (createStatement g)
  | "DISCARD" => some discardStatement
  | "DROP" => some (dropStatement g)
  | "FLUSH" => some (flushStatement g)
  | "GRANT" => some grantStatement
  | "KILL" => some (killStatement g)
  | "LOAD" => some (loadStatement g)
  | "MSCK" => some repairStatement
  | "REVOKE" => some revokeStatement
  | "TRUNCATE" => some (truncateStatement g)
  | "UNCACHE" => some uncacheStatement
  | "UNLOAD" => some (unloadStatement g)
  | _ => none

/-- The reader of a statement that only some dialects know, after its word. -/
def specialAfter? (word : String) : Option (Reader Unit) :=
  match g.dialect, word with
  | .generic, "DETACH" => some detachStatement
  | .generic, "INSTALL" => some (ignoring identifier)
  | .generic, "OPTIMIZE" => some (optimizeStatement g)
  | .postgres, "COMMENT" | .generic, "COMMENT" => some (commentStatement g)
  | .postgres, "LISTEN" => some (ignoring identifier)
  | .postgres, "UNLISTEN" => some unlistenStatement
  | .postgres, "NOTIFY" => some (notifyStatement g)
  | _, _ => none

/-- Read a statement that begins with more than one word of its dialect, if one is next. -/
def dialectStatement : Reader Bool := do
  match g.dialect with
  | .mysql =>
      if ← keywordsIn ["LOCK", "TABLES"] then
        ignoring (commaList lockedTable)
        return true
      else keywordsIn ["UNLOCK", "TABLES"]
  | .postgres =>
      if (← attempt enumHead).isSome then
        enumMembers
        return true
      else return false
  | _ => return false

def statement : Reader Statement := do
  if ← dialectStatement g then return .other
  else
    let word := (← peek).keyword
    if ["SELECT", "WITH", "VALUES"].contains word || (← atSymbol "(") then
      return .query (← g.query)
    else
      match changeAfter? g word with
      | some rest => skip; rest
      | none =>
          match controlAfter? g word <|> storeAfter? g word <|> specialAfter? g word with
          | some rest =>
              skip
              rest
              return .other
          | none => wrongNext "an SQL statement"

end SqlInsight.Grammar
