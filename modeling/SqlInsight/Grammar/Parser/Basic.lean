/-
Readers of token lists. A reader takes tokens from the front of a list or fails with a message that
names what it expected and what it found. Nesting deeper than the grammar's bound is a failure of
its own, which no alternative catches. A failure tells what it has left of the tokens, for the few
places where reading goes on behind it.
-/
import SqlInsight.Grammar.Dialect
import SqlInsight.Grammar.Keyword
import SqlInsight.Grammar.Lexer
import SqlInsight.Grammar.Tree

namespace SqlInsight.Grammar

/-- Why a reader failed. -/
inductive Failure where
  | unexpected (message : String) (place : Option Position)
  | tooDeep
deriving Repr, DecidableEq

/-- A failure, and the tokens that were left when it came up. -/
structure Refusal where
  failure : Failure
  rest : List Placed

abbrev Reader := StateT (List Placed) (Except Refusal)

/-- The readers of nested statements, queries and expressions one level further down. An expression
is read as far as its operators bind tighter than the number given. The rows of a hierarchy are
connected by expressions of their own kind, in which a row may name the one before it. -/
structure Level where
  dialect : Dialect
  isHierarchy : Bool
  statement : Reader Statement
  query : Reader Query
  expr : Nat → Reader Expr
  connection : Reader Expr

namespace Reader

variable {α : Type}

/-- The token after the next `n` ones. -/
def peekAt (n : Nat) : Reader Token := do
  match (← get).drop n with
  | (t, _) :: _ => return t
  | [] => return .endOfText

def peek : Reader Token :=
  peekAt 0

/-- The position of the next token; none at the end of the text. -/
def place : Reader (Option Position) := do
  return ((← get).head?).map Prod.snd

def next : Reader Token := do
  match ← get with
  | (t, _) :: rest => set rest; return t
  | [] => return .endOfText

/-- Drop the next token. -/
def skip : Reader Unit :=
  modify fun tokens => tokens.drop 1

def refuse (failure : Failure) : Reader α := do
  throw ⟨failure, ← get⟩

def failAt (message : String) (place : Option Position) : Reader α :=
  refuse (.unexpected message place)

def fail (message : String) : Reader α :=
  refuse (.unexpected message none)

/-- Fail because something else was expected where that token stands. -/
def expectedAt (what : String) (found : Token) (place : Option Position) : Reader α :=
  failAt ("Expected: " ++ what ++ ", found: " ++ found.render) place

/-- Fail because something else was expected where the next token stands. -/
def expected (what : String) : Reader α := do
  expectedAt what (← peek) (← place)

/-- Take the next token and fail because something else was expected there. -/
def wrongNext (what : String) : Reader α := do
  let start ← place
  let found ← next
  expectedAt what found start

/-- The result of a reader, or none and nothing taken if it fails. -/
def attempt (r : Reader α) : Reader (Option α) := fun tokens =>
  match r tokens with
  | .ok (a, rest) => .ok (some a, rest)
  | .error ⟨.tooDeep, _⟩ => .error ⟨.tooDeep, tokens⟩
  | .error _ => .ok (none, tokens)

/-- The result of a reader or why it failed; what it has taken stays taken. -/
def outcome (r : Reader α) : Reader (Except Failure α) := fun tokens =>
  match r tokens with
  | .ok (a, rest) => .ok (.ok a, rest)
  | .error refusal => .ok (.error refusal.failure, refusal.rest)

/-- The result of a reader, or none if it fails; what it has taken stays taken. -/
def tolerate (r : Reader α) : Reader (Option α) := do
  return (← outcome r).toOption

def atKeyword (word : String) : Reader Bool := do
  return (← peek).keyword == word

/-- Whether the next tokens are those keywords. -/
def atKeywords (words : List String) : Reader Bool := do
  return ((← get).take words.length).map (fun t => t.1.keyword) == words

def keyword (word : String) : Reader Bool := do
  if ← atKeyword word then skip; return true
  else return false

/-- Take all those keywords if they are next. -/
def keywordsIn (words : List String) : Reader Bool := do
  if ← atKeywords words then
    modify fun tokens => tokens.drop words.length
    return true
  else return false

/-- Take the one of those keywords that is next. -/
def oneOf (words : List String) : Reader (Option String) := do
  let word := (← peek).keyword
  if words.contains word then skip; return some word
  else return none

/-- Take the keywords of the first of those lists that is next. -/
def anyOf : List (List String) → Reader Bool
  | [] => return false
  | words :: others => do
      if ← keywordsIn words then return true else anyOf others

def expectKeyword (word : String) : Reader Unit := do
  unless ← keyword word do expected word

/-- Take all those keywords or fail at the first that is missing. -/
def expectKeywords : List String → Reader Unit
  | [] => return ()
  | word :: rest => do
      expectKeyword word
      expectKeywords rest

/-- Take one of those keywords or fail. -/
def expectOneOf (words : List String) : Reader String := do
  match ← oneOf words with
  | some word => return word
  | none => expected ("one of " ++ String.intercalate " or " words)

def atSymbol (text : String) : Reader Bool := do
  return (← peek).isSymbol text

def symbol (text : String) : Reader Bool := do
  if ← atSymbol text then skip; return true
  else return false

/-- Take all those symbols if they are next. -/
def symbols (texts : List String) : Reader Bool := do
  let tokens := (← get).take texts.length
  if tokens.length == texts.length && (tokens.zip texts).all fun (t, s) => t.1.isSymbol s then
    modify fun tokens => tokens.drop texts.length
    return true
  else return false

def expectSymbol (text : String) : Reader Unit := do
  unless ← symbol text do expected text

def only (allowed : Bool) (r : Reader Bool) : Reader Bool :=
  if allowed then r else return false

/-- Read items as long as `more` says that another one follows. Each takes at least one token, so
the number of tokens bounds the items. -/
def repeatWhile (item : Reader α) (more : Reader Bool) : (fuel : Nat) → Reader (List α)
  | 0 => return []
  | fuel + 1 => do
      let first ← item
      if ← more then return first :: (← repeatWhile item more fuel)
      else return [first]

/-- Read items with a separator between them, which `more` takes. -/
def separatedBy (more : Reader Bool) (item : Reader α) : Reader (List α) := do
  repeatWhile item more ((← get).length + 1)

def commaList (item : Reader α) : Reader (List α) :=
  separatedBy (symbol ",") item

/-- Read items as long as they are there. -/
def many (item : Reader (Option α)) : (fuel : Nat) → Reader (List α)
  | 0 => return []
  | fuel + 1 => do
      match ← item with
      | some a => return a :: (← many item fuel)
      | none => return []

/-- Read items as long as they are there. -/
def manyOf (item : Reader (Option α)) : Reader (List α) := do
  many item ((← get).length + 1)

/-- Read something as often as it is there. -/
def whileFound (item : Reader Bool) : Reader Unit := do
  let _ ← manyOf do
    if ← item then return some () else return none

/-- Try readers in their order up to the first that finds something; the others, if one does. -/
def othersOfFound : List (Reader Bool) → Reader (Option (List (Reader Bool)))
  | [] => return none
  | part :: rest => do
      if ← part then return some rest
      else return (← othersOfFound rest).map (part :: ·)

/-- Read as many of the parts as are there, in any order, each at most once. -/
def eachOnceUpTo : (fuel : Nat) → List (Reader Bool) → Reader Unit
  | 0, _ => return ()
  | fuel + 1, parts => do
      match ← othersOfFound parts with
      | some others => eachOnceUpTo fuel others
      | none => return ()

/-- Read as many of the parts as are there, in any order, each at most once. -/
def eachOnce (parts : List (Reader Bool)) : Reader Unit :=
  eachOnceUpTo parts.length parts

/-- Read something between parentheses. -/
def inParens (inner : Reader α) : Reader α := do
  expectSymbol "("
  let a ← inner
  expectSymbol ")"
  return a

/-- Read a list with commas in parentheses. -/
def listInParens (item : Reader α) : Reader (List α) :=
  inParens (commaList item)

/-- Read a list with commas up to the closing symbol, which is left. -/
def listUpTo (closing : String) (item : Reader α) : Reader (List α) := do
  if ← atSymbol closing then return [] else commaList item

/-- Read something if that keyword is next. -/
def after (word : String) (inner : Reader α) : Reader (Option α) := do
  if ← keyword word then return some (← inner)
  else return none

/-- Read something if all those keywords are next. -/
def afterAll (words : List String) (inner : Reader α) : Reader (Option α) := do
  if ← keywordsIn words then return some (← inner)
  else return none

/-- Read something for what it takes only. -/
def ignoring (inner : Reader α) : Reader Unit := do
  let _ ← inner

end Reader

open Reader

def identifier : Reader Ident := do
  match ← peek with
  | .word value quote _ => skip; return ⟨value, quote⟩
  | .literal .single value => skip; return ⟨value, some '\''⟩
  | .literal .double value => skip; return ⟨value, some '"'⟩
  | _ => wrongNext "identifier"

/-- Read names with commas between them. -/
def identifiers : Reader (List Ident) :=
  commaList identifier

/-- Read a name of several parts. -/
def objectName : Reader ObjectName :=
  separatedBy (symbol ".") identifier

/-- Read a list of names in parentheses, which may be missing if it is optional and empty if that
is allowed. -/
def columnList (isOptional allowsEmpty : Bool) : Reader (List Ident) := do
  if ← symbol "(" then
    if ← only allowsEmpty (symbol ")") then return []
    else
      let columns ← identifiers
      expectSymbol ")"
      return columns
  else if isOptional then return []
  else expected "a list of columns in parentheses"

/-- Read a name after an expression or a relation: any after `AS`, else one not reserved there. -/
def aliasUnless (reserved : List String) : Reader (Option Ident) := do
  let explicit ← keyword "AS"
  match ← peek with
  | .word value quote word =>
      if explicit || !reserved.contains word then
        skip
        return some ⟨value, quote⟩
      else return none
  | .literal .single value => skip; return some ⟨value, some '\''⟩
  | .literal .double value => skip; return some ⟨value, some '"'⟩
  | _ => if explicit then wrongNext "an identifier after AS" else return none

/-- Read the words that make a definition conditional, if they are next. -/
def ifNotExists : Reader Bool :=
  keywordsIn ["IF", "NOT", "EXISTS"]

/-- Read the words that make a change conditional, if they are next. -/
def ifExists : Reader Bool :=
  keywordsIn ["IF", "EXISTS"]

/-- Read the cluster on which a definition holds, if one is named. -/
def onCluster : Reader Unit :=
  ignoring (afterAll ["ON", "CLUSTER"] identifier)

/-- Read the statements of a text or a block: semicolons separate them, and the word `END` after one
ends them. -/
def statementsFrom (g : Level) (expectsSeparator : Bool) : (fuel : Nat) → Reader (List Statement)
  | 0 => return []
  | fuel + 1 => do
      if ← symbol ";" then statementsFrom g false fuel
      else
        match ← peek with
        | .endOfText => return []
        | _ =>
            if expectsSeparator then
              if ← atKeyword "END" then return []
              else expected "end of statement"
            else
              let first ← g.statement
              return first :: (← statementsFrom g true fuel)

/-- Read the statements of a text or a block. -/
def statements (g : Level) : Reader (List Statement) := do
  statementsFrom g false (2 * (← get).length + 2)

end SqlInsight.Grammar
