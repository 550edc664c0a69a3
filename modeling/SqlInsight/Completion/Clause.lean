/-
The words before the cursor: what is being typed, the identifier before a dot, the last words that
introduce a table or open a clause, and the target of a statement whose columns are being listed or
set, which is the table named after the words that begin an update or an insertion.
-/
import SqlInsight.References

namespace SqlInsight.Completion

def tableWords : List String :=
  ["APPLY", "FROM", "INTO", "JOIN", "TABLE", "UPDATE"]

/-- The words that may stand before those that join. -/
def joinWords : List String :=
  ["CROSS", "FULL", "INNER", "LEFT", "OUTER", "RIGHT"]

/-- The words after which a column or an expression begins. -/
def columnWords : List String :=
  ["AND", "DISTINCT", "ELSE", "HAVING", "ON", "OR", "SELECT", "THEN", "WHEN", "WHERE"]

def clauseWords : List String :=
  ["AND", "APPLY", "ELSE", "FROM", "HAVING", "INTO", "JOIN", "ON", "OR", "SELECT", "SET", "THEN",
    "UPDATE", "USING", "VALUES", "WHEN", "WHERE"]

/-- The words that open a clause together with a second one. -/
def pairWords : List String :=
  ["ORDER", "GROUP", "PARTITION"]

def among (list : List String) (word : Text) : Bool :=
  list.any fun w => w.toList == word

def nameTail (t : Text) : Text :=
  (t.reverse.takeWhile CharClass.isName).reverse

/-- A text cut before the identifier that is being typed at its end, which may have an opening
delimiter. -/
def splitTyped (t : Text) : Text × Text :=
  let typed := nameTail t
  let before := t.take (t.length - typed.length)
  match before.getLast? with
  | some '[' => (before.dropLast, '[' :: typed)
  | some '"' => (before.dropLast, '"' :: typed)
  | _ => (before, typed)

/-- The delimited identifier before a closing delimiter, without its delimiters, and what stands
before it. The text before the closing delimiter is given in reverse. -/
def delimitedEnd? (opening closing : Char) (reversed : Text) : Option (Text × Text) :=
  let inner := reversed.takeWhile (· != opening)
  match reversed.drop inner.length with
  | _ :: before => some (Name.unquote (opening :: inner.reverse ++ [closing]), before.reverse)
  | [] => none

/-- The identifier at the end of a text, without its delimiters, and what stands before it. -/
def lastIdentifier? (t : Text) : Option (Text × Text) :=
  match t.reverse with
  | ']' :: reversed => delimitedEnd? '[' ']' reversed
  | '"' :: reversed => delimitedEnd? '"' '"' reversed
  | _ =>
      let name := nameTail t
      if name.isEmpty then none else some (name, t.take (t.length - name.length))

/-- The stretches of a text between blanks, from the end of the text, in upper case and without what
cannot begin a name. -/
def tokensFromEnd (t : Text) : List Text :=
  ((t.splitOnP CharClass.isBlank).filter fun token => !token.isEmpty).reverse.map fun token =>
    Text.asciiUpper (token.dropWhile fun c => !CharClass.isName c)

/-- The words at the end of a text after which a table is named. -/
def tableWords? (t : Text) : Option Text :=
  match tokensFromEnd t with
  | [] => none
  | last :: before =>
      if !among tableWords last then none
      else
        let joining := last == "JOIN".toList || last == "APPLY".toList
        match before.head?.filter (among joinWords) with
        | some word => some (if joining then word ++ ' ' :: last else last)
        | none => some last

def upperWords (t : Text) : List Text :=
  ((t.splitOnP fun c => !CharClass.isName c).filter fun word => !word.isEmpty).map Text.asciiUpper

/-- The last words of a list that open a clause, or `last` if there are none; `previous` is the word
before the list. -/
def lastClauseFrom (last : Option Text) (previous : Text) : List Text → Option Text
  | [] => last
  | word :: rest =>
      let last :=
        if word == "BY".toList && among pairWords previous then some (previous ++ ' ' :: word)
        else if among clauseWords word then some word
        else last
      lastClauseFrom last word rest

def lastClause? (t : Text) : Option Text :=
  lastClauseFrom none [] (upperWords t)

/-- Whether a text after `depth` opening parentheses leaves the first of them open. -/
def leavesOpen (depth : Nat) : Text → Bool
  | [] => true
  | c :: rest =>
      if c = '(' then leavesOpen (depth + 1) rest
      else if c = ')' then 1 < depth && leavesOpen (depth - 1) rest
      else leavesOpen depth rest

/-- Whether the end of a text lies in the body of a common table expression. -/
def endsInCte (t : Text) : Bool :=
  (References.cteHeads t).any fun head => leavesOpen 1 head.rest

/-- The table of an unfinished statement, as it is written, and what follows the words up to where
its columns are named. -/
structure TargetHead where
  table : Text
  rest : Text

/-- What follows the blanks and the identifier of an alias at the start of a text: in turn what
follows an alias after the word for it, what follows an alias without it, and the text itself. -/
def afterAlias (t : Text) : List Text :=
  match Text.afterBlanks? t with
  | none => [t]
  | some rest =>
      let explicit := do
        let more ← Text.afterWord? "as".toList rest
        Text.identifier? (← Text.afterBlanks? more)
      (explicit.map Prod.snd).toList ++ ((Text.identifier? rest).map Prod.snd).toList ++ [t]

/-- What follows the word after which columns are set. -/
def afterSet? (t : Text) : Option Text :=
  ((Text.afterBlanks? t).bind (Text.afterWord? "set".toList)).filter Text.endsWord

/-- The head of an update that begins a text after `before`, and how long it is. -/
def updateAt? (before : Option Char) (t : Text) : Option (TargetHead × Nat) := do
  let rest ← Text.afterBlanks? (← Text.afterWordStart? "update".toList before t)
  let (table, rest) ← Text.dottedName? rest.length rest
  let rest ← (afterAlias rest).findSome? afterSet?
  return (⟨table, rest⟩, t.length - rest.length)

/-- The text of the open list of columns at the start of a text. -/
def openColumns? (t : Text) : Option Text :=
  match t.trimStart with
  | '(' :: rest => if rest.any fun c => c == '(' || c == ')' then none else some rest
  | _ => none

/-- The head of an insertion with an open list of columns, which begins a text after `before`. -/
def insertAt? (before : Option Char) (t : Text) : Option TargetHead := do
  let rest ← Text.afterBlanks? (← Text.afterWordStart? "insert".toList before t)
  let afterInto := (Text.afterWord? "into".toList rest).bind Text.afterBlanks?
  (afterInto.toList ++ [rest]).findSome? fun rest => do
    let (table, rest) ← Text.dottedName? rest.length rest
    return ⟨table, ← openColumns? rest⟩

def lastUpdate? (t : Text) : Option TargetHead :=
  (Text.allMatches updateAt? t).getLast?

def firstInsert? (t : Text) : Option TargetHead :=
  Text.firstMatch? insertAt? none t

/-- The name of the table without its qualifiers. -/
def TargetHead.name? (head : TargetHead) : Option Text :=
  (References.splitQualified head.table).getLast?

end SqlInsight.Completion
