/-
Words and identifiers at the start of a text, when case is ignored. An identifier stands in brackets
or double quotes, or is a run of name characters; where what follows decides, also a part of such a
run from its start counts, longer parts first.
-/
import SqlInsight.Text.CharClass

namespace SqlInsight.Text

/-- Whether a character stands for an ASCII letter, given in lower case, when case is ignored. -/
def isLetter (letter c : Char) : Bool :=
  c.toLower == letter || (letter == 's' && c.toNat == 0x17f)
    || (letter == 'k' && c.toNat == 0x212a)

/-- What follows a word, given in lower case, at the start of a text, when case is ignored. -/
def afterWord? : (word t : Text) → Option Text
  | [], t => some t
  | _ :: _, [] => none
  | letter :: word, c :: rest => if isLetter letter c then afterWord? word rest else none

def afterFirst? (c : Char) : Text → Option Text
  | [] => none
  | d :: rest => if d = c then some rest else afterFirst? c rest

/-- What follows the blanks at the start of a text, of which there must be one. -/
def afterBlanks? (t : Text) : Option Text :=
  if t.head?.any CharClass.isBlank then some t.trimStart else none

/-- Whether no word goes on after a text that ends with a word character and is followed by
`rest`. -/
def endsWord (rest : Text) : Bool :=
  !rest.head?.any CharClass.isWord

def beginsIdentifier (c : Char) : Bool :=
  CharClass.isFoldedLetter c || c == '_' || c == '#' || c == '@'

def continuesIdentifier (c : Char) : Bool :=
  CharClass.isWord c || c == '$' || c == '#' || c == '@'

/-- An identifier between delimiters after the opening one: it is not empty and goes up to the first
closing one. -/
def delimited? (opening closing : Char) (t : Text) : Option (Text × Text) :=
  let inner := t.takeWhile (· != closing)
  match t.drop inner.length with
  | _ :: rest => if inner.isEmpty then none else some (opening :: inner ++ [closing], rest)
  | [] => none

/-- The identifier at the start of a text, as long as it can be, and what follows it. -/
def identifier? : Text → Option (Text × Text)
  | [] => none
  | c :: rest =>
      if c = '[' then delimited? '[' ']' rest
      else if c = '"' then delimited? '"' '"' rest
      else if beginsIdentifier c then
        let more := rest.takeWhile continuesIdentifier
        some (c :: more, rest.drop more.length)
      else none

/-- The parts from the start of a run of characters, the longest first, each with what follows it
in front of `rest`. -/
def prefixesOf (run rest : Text) : List (Text × Text) :=
  (List.range run.length).map fun n =>
    (run.take (run.length - n), run.drop (run.length - n) ++ rest)

/-- The identifiers that a text may be taken to begin with, and what follows each. -/
def identifiers (t : Text) : List (Text × Text) :=
  match identifier? t with
  | none => []
  | some (name, rest) =>
      if t.head?.any beginsIdentifier then prefixesOf name rest else [(name, rest)]

/-- What follows an identifier after dots, up to `most` times, and how many characters that took;
blanks may stand around the dots. -/
def dottedRest (taken : Nat) (t : Text) : (most : Nat) → Nat × Text
  | 0 => (taken, t)
  | most + 1 =>
      match trimStart t with
      | '.' :: rest =>
          match identifier? (trimStart rest) with
          | some (_, after) => dottedRest (taken + (t.length - after.length)) after most
          | none => (taken, t)
      | _ => (taken, t)

/-- The identifiers joined by dots at the start of a text, up to `most` after the first, and what
follows them. -/
def dottedName? (most : Nat) (t : Text) : Option (Text × Text) :=
  (identifier? t).map fun (name, rest) =>
    let (taken, after) := dottedRest name.length rest most
    (t.take taken, after)

/-- The first place at which `find` finds something, in a text that follows `before`. -/
def firstMatch? {α : Type} (find : (before : Option Char) → Text → Option α)
    (before : Option Char) : Text → Option α
  | [] => find before []
  | c :: rest => (find before (c :: rest)).or (firstMatch? find (some c) rest)

/-- All places at which `find` finds something and how many characters that takes, from left to
right; each search goes on after what was found. The characters to be skipped first are counted by
`skip`. -/
def matchesFrom {α : Type} (find : (before : Option Char) → Text → Option (α × Nat))
    (before : Option Char) (skip : Nat) : Text → List α
  | [] => []
  | c :: rest =>
      match skip with
      | skip + 1 => matchesFrom find (some c) skip rest
      | 0 =>
          match find before (c :: rest) with
          | some (found, length) => found :: matchesFrom find (some c) (length - 1) rest
          | none => matchesFrom find (some c) 0 rest

def allMatches {α : Type} (find : (before : Option Char) → Text → Option (α × Nat))
    (t : Text) : List α :=
  matchesFrom find none 0 t

/-- What follows a whole word, given in lower case, that begins after `before`. -/
def afterWordStart? (word : Text) (before : Option Char) (t : Text) : Option Text :=
  if before.any CharClass.isWord then none else afterWord? word t

end SqlInsight.Text
