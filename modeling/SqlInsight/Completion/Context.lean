/-
What belongs at the cursor. The words right before it decide where they can; else the statement
around it is read if the buffer is small, and last the clause it stands in.
-/
import SqlInsight.Batch
import SqlInsight.Completion.Clause
import SqlInsight.Engine

namespace SqlInsight.Completion

/-- What belongs at the cursor, and after which words it stands: a word of the language, a table, a
column of any table in scope or of one, an object of a schema, a routine, a database, or a column of
the table that a statement changes. -/
inductive Context where
  | keyword
  | table (after : Text)
  | column (after : Option Text) (inCte : Bool)
  | aliasColumn (name : Text)
  | schema (schema typed : Text)
  | routine (after : Text)
  | database
  | updateColumn (target : Option Text)
  | insertColumn (target : Option Text)
deriving Repr, DecidableEq

namespace Context

def kind : Context → String
  | keyword => "keyword"
  | table _ => "table"
  | column _ _ => "column"
  | aliasColumn _ => "alias_column"
  | schema _ _ => "schema"
  | routine _ => "routine"
  | database => "database"
  | updateColumn _ => "update_column"
  | insertColumn _ => "insert_column"

end Context

def hasWord (t : Text) (word : String) : Bool :=
  (t.findWord word.toList 0).isSome

/-- What belongs after an identifier and a dot, followed by what is being typed. A bare number has
no parts. -/
def afterDot? (s : Settings) (before typed : Text) : Option Context :=
  if before.getLast? ≠ some '.' then none
  else
    let head := before.dropLast
    match lastIdentifier? head with
    | none => none
    | some (qualifier, rest) =>
        let delimited := head.getLast? == some ']' || head.getLast? == some '"'
        if !delimited && qualifier.head?.any Char.isDigit then none
        else if s.isKnownSchema qualifier || (tableWords? rest).isSome then
          some (.schema qualifier (Name.unquote typed))
        else some (.aliasColumn qualifier)

def statementAt? (s : Settings) (buffer : Text) (offset : Nat) : Option Text := do
  let batch ← (Batch.split s.batchSeparator buffer).find? fun b =>
    b.offset ≤ offset && offset ≤ b.offset + b.text.size
  let relative := offset - batch.offset
  let piece ← (Piece.split batch.text).find? fun p =>
    p.first ≤ relative && relative ≤ p.last
  return piece.text

/-- What belongs in a statement after the words before the cursor. -/
def ofStatement? (before : Text) : Outline.Statement → Option Context
  | .update table _ _ _ _ =>
      if hasWord before "WHERE" then some (.column (lastClause? before) false)
      else some (.updateColumn (table.map fun t => t.name))
  | .insert table _ _ =>
      if hasWord before "SELECT" || hasWord before "VALUES" then none
      else some (.insertColumn (some table.name))
  | .select _ =>
      let clause := lastClause? before
      if clause.any (among ["FROM", "JOIN", "APPLY"]) then none
      else some (.column clause (endsInCte before))
  | .delete _ _ | .other => none

/-- What belongs at the cursor after `before` in a buffer whose statement can be read. The words
before the cursor are those of its statement. -/
def ofBuffer? (e : Engine) (before buffer words : Text) : Option Context := do
  if !buffer.startsWith before then none
  let statement ← statementAt? e.settings buffer before.size
  let reading ← e.ladder.read? statement
  ofStatement? words (← reading.statements.head?)

/-- The column that an update sets next, after the words up to the cursor and the last of them. -/
def ofUpdate? (words lastWord : Text) : Option Context := do
  let head ← lastUpdate? words
  if hasWord head.rest "WHERE" then none
  let afterSet := lastWord == "SET".toList && head.rest.isBlank
  let afterAssignment := words.getLast? == some ',' && head.rest.any (· == '=')
  if afterSet || afterAssignment then some (.updateColumn head.name?) else none

/-- What belongs after the last sign or word, which stands in that clause. -/
def ofLast (last : Char) (lastWord : Text) (clause : Option Text) (inCte : Bool) : Context :=
  if among columnWords lastWord then .column (some lastWord) inCte
  else if lastWord == "BY".toList && clause.any (Text.endsWith · " BY".toList) then
    .column clause inCte
  else if "(=<>!+-/%".toList.contains last then .column clause inCte
  else if last = ',' then
    if clause == some "FROM".toList then .table "FROM".toList else .column clause inCte
  else .keyword

/-- What belongs after the words before the cursor. -/
def ofWords (before : Text) : Context :=
  let words := before.trimEnd
  match words.getLast? with
  | none => .keyword
  | some last =>
      let lastWord := Text.asciiUpper (splitTyped words).2
      let target :=
        ((firstInsert? words).map fun head => Context.insertColumn head.name?).or
          (ofUpdate? words lastWord)
      match target with
      | some context => context
      | none =>
          if lastWord == "USE".toList then .database
          else if among ["EXEC", "EXECUTE", "CALL"] lastWord then .routine lastWord
          else ofLast last lastWord (lastClause? words) (endsInCte words)

/-- The part of a masked text after its last semicolon. -/
def lastStatement (masked : Text) : Text :=
  (masked.reverse.takeWhile (· != ';')).reverse

/-- What belongs at the cursor after `before`. The buffer, if it is given, counts only if `before`
begins it and it is small enough to be read. -/
def classify (e : Engine) (before : Text) (buffer : Option Text) : Context :=
  if before.endsInLiteralOrComment then .keyword
  else
    let (words, typed) := splitTyped (lastStatement (before.mask .literals))
    match afterDot? e.settings words typed with
    | some context => context
    | none =>
        match tableWords? words with
        | some after => .table after
        | none =>
            let small := buffer.filter fun b => b.size < e.settings.maxTreeChars
            (small.bind fun b => ofBuffer? e before b words).getD (ofWords words)

end SqlInsight.Completion
