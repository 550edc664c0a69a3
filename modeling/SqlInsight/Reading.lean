/-
Reading texts that may be incomplete or written for another dialect: an ordered list of strategies,
each a preparation of the text and a dialect, of which the first that succeeds wins.
-/
import SqlInsight.Name.Requoting
import SqlInsight.Outline
import SqlInsight.Settings
import SqlInsight.SyntaxError
import SqlInsight.Text.Pattern

namespace SqlInsight

abbrev Parser := Dialect → Text → Except SyntaxError (List Outline.Statement)

/-- How a text is prepared before it is read: all bracketed names requoted, only pairs of a schema
and a table in brackets, all bracketed names with a table put at the end, or not at all. -/
inductive Preparation where
  | identifiers
  | qualifiedNames
  | placeholder
  | verbatim
deriving Repr, DecidableEq

def Preparation.label : Preparation → String
  | identifiers => "Identifiers"
  | qualifiedNames => "QualifiedNames"
  | placeholder => "Placeholder"
  | verbatim => "Verbatim"

/-- Which of the two dialects of the settings is meant. -/
inductive Role where
  | primary
  | fallback
deriving Repr, DecidableEq

def Role.label : Role → String
  | primary => "Primary"
  | fallback => "Fallback"

structure Strategy where
  preparation : Preparation
  role : Role
deriving Repr, DecidableEq

def Strategy.label (s : Strategy) : String :=
  s.preparation.label ++ "/" ++ s.role.label

def strategies : List Strategy :=
  [⟨.identifiers, .primary⟩, ⟨.identifiers, .fallback⟩, ⟨.qualifiedNames, .primary⟩,
    ⟨.qualifiedNames, .fallback⟩, ⟨.placeholder, .primary⟩, ⟨.placeholder, .fallback⟩,
    ⟨.verbatim, .primary⟩]

/-- The strategies that read nothing but what was written. -/
def strictStrategies : List Strategy :=
  strategies.filter (·.preparation != .placeholder)

/-- The table put at the end of a text that ends in an open clause. -/
def placeholderTable : Text :=
  "__sqlsense_placeholder__".toList

/-- Whether a name is that of the table put at the end. -/
def isPlaceholder (name : Text) : Bool :=
  name.sameAscii placeholderTable

namespace Text

/-- Whether the body of a common table expression begins, after any blanks. -/
def opensBody (t : Text) : Bool :=
  match afterWord? "as".toList t.trimStart with
  | some rest => (trimStart rest).head? == some '('
  | none => false

/-- Whether the columns and the body of a common table expression follow its name. -/
def followsName (t : Text) : Bool :=
  opensBody t
    || match t.trimStart with
      | '(' :: rest => (afterFirst? ')' rest).any opensBody
      | _ => false

/-- Whether the body follows a name that is a run of characters, or a part of one from its start. -/
def bodyAfterRun : Text → Bool
  | [] => false
  | c :: rest => !(CharClass.isBlank c || c == '(') && (followsName rest || bodyAfterRun rest)

/-- Whether a text begins with a common table expression after the word that introduces it. -/
def opensCte (t : Text) : Bool :=
  let named := t.trimStart
  t.head?.any CharClass.isBlank
    && ((match named with
        | '[' :: rest => (afterFirst? ']' rest).any followsName
        | '"' :: rest => (afterFirst? '"' rest).any followsName
        | _ => false)
      || bodyAfterRun named)

/-- Whether a common table expression is introduced somewhere in a text that follows `before`. -/
def introducesCte (before : Option Char) : Text → Bool
  | [] => false
  | c :: rest =>
      (!before.any CharClass.isWord && (afterWord? "with".toList (c :: rest)).any opensCte)
        || introducesCte (some c) rest

/-- Whether a text introduces a common table expression outside literals and comments. -/
def hasCte (t : Text) : Bool :=
  introducesCte none (t.mask .literals)

def openWords : List String :=
  ["AND", "AS", "BY", "DELETE", "FROM", "HAVING", "IN", "INSERT", "INTO", "JOIN", "NOT", "ON",
    "OR", "SELECT", "SET", "UPDATE", "VALUES", "WHERE"]

/-- The sign or the word at the end of a text that leaves it open, if there is one. -/
def openTail? (t : Text) : Option Text :=
  let code := (t.mask .comments).trimEnd.reverse
  match code with
  | [] => none
  | last :: _ =>
      if "=,(.<>".toList.contains last then some [last]
      else if "'\"]".toList.contains last then none
      else
        let word := asciiUpper (code.takeWhile CharClass.isName).reverse
        if openWords.any (·.toList == word) then some word else none

end Text

/-- A parser with the two dialects it is used with. -/
structure Ladder where
  parser : Parser
  primary : Dialect
  fallback : Dialect

/-- The statements of a text, and the strategy that found them. -/
structure Reading where
  statements : List Outline.Statement
  strategy : Strategy

namespace Ladder

def dialect (l : Ladder) : Role → Dialect
  | .primary => l.primary
  | .fallback => l.fallback

/-- The text as a strategy reads it; none if the strategy does not apply to it. -/
def prepare? (l : Ladder) (s : Strategy) (t : Text) : Option Text :=
  let quote := (l.dialect s.role).nameQuote
  match s.preparation with
  | .identifiers => some (Name.requoteAll quote t)
  | .qualifiedNames => some (Name.requotePairs quote t)
  | .placeholder =>
      if t.hasCte && t.openTail?.isSome then
        some ((Name.requoteAll quote t).trimEnd ++ '\n' :: placeholderTable)
      else none
  | .verbatim => some t

/-- The first success of some strategies. What has failed is not tried again. -/
def climb (l : Ladder) (t : Text) (tried : List (Dialect × Text)) :
    List Strategy → Option Reading
  | [] => none
  | s :: rest =>
      match l.prepare? s t with
      | none => climb l t tried rest
      | some prepared =>
          let attempt := (l.dialect s.role, prepared)
          if tried.contains attempt then climb l t tried rest
          else
            match l.parser attempt.1 attempt.2 with
            | .ok statements => some ⟨statements, s⟩
            | .error _ => climb l t (attempt :: tried) rest

/-- Read a text for its structure. A text that ends in an open clause is only read if it introduces
a common table expression. -/
def read? (l : Ladder) (t : Text) : Option Reading :=
  if t.isBlank then none
  else if t.openTail?.isSome && !t.hasCte then none
  else l.climb t [] strategies

/-- Read a text exactly as it was written. The error is that of the primary dialect on the text
itself, so that its place is one of the text. -/
def readStrictly (l : Ladder) (t : Text) : Except SyntaxError Reading :=
  match l.climb t [] strictStrategies with
  | some reading => .ok reading
  | none =>
      match l.parser l.primary t with
      | .ok statements => .ok ⟨statements, ⟨.verbatim, .primary⟩⟩
      | .error e => .error e

def ofSettings (parser : Parser) (s : Settings) : Ladder :=
  ⟨parser, s.primary, s.fallback⟩

end Ladder

/-- Whether a table was put at the end of the text. -/
def Reading.hasPlaceholder (r : Reading) : Bool :=
  r.strategy.preparation == .placeholder

def SyntaxError.report (e : SyntaxError) : Text :=
  s!"SQL parse error ({Strategy.label ⟨.verbatim, .primary⟩}): ".toList ++ e.message

end SqlInsight
