/-
Reading TOML documents. Arrays and inline tables nest fewer than eighty deep, and a dotted key has
fewer than eighty parts.
-/
import SqlInsight.Toml.Document
import SqlInsight.Toml.Number
import SqlInsight.Toml.Quoted

namespace SqlInsight.Toml

/-- How deep values may nest, and how many parts a key may have. -/
def maxDepth : Nat := 79

/-- A text after the comment at its start, if there is one. -/
def skipComment (t : Text) : Text :=
  match t with
  | '#' :: rest => rest.dropWhile isPlain
  | _ => t

/-- What follows the end of a line, before which only blanks and a comment stand. -/
def afterLine? (t : Text) : Option Text :=
  match skipComment (skipBlanks t) with
  | [] => some []
  | rest => afterBreak? rest

/-- A text without the blanks, line breaks and comments at its start. -/
def skipLines : (fuel : Nat) → Text → Text
  | 0, t => t
  | fuel + 1, t =>
      match skipBreaks t with
      | '#' :: rest =>
          match afterBreak? (rest.dropWhile isPlain) with
          | some rest => skipLines fuel rest
          | none => '#' :: rest
      | rest => rest

/-- Whether a character may stand in a key without quotes. -/
def isBare (c : Char) : Bool :=
  c.isAlphanum || c == '_' || c == '-'

def keyPart? (t : Text) : Option (Text × Text) :=
  match t with
  | '"' :: rest => basicFrom (rest.length + 1) rest
  | '\'' :: rest => literalFrom rest
  | _ =>
      let name := t.takeWhile isBare
      if name.isEmpty then none else some (name, t.drop name.length)

/-- The parts of the key at the start of a text, with blanks around them. -/
def keyParts? : (fuel : Nat) → Text → Option (List Text × Text)
  | 0, _ => none
  | fuel + 1, t => do
      let (part, rest) ← keyPart? (skipBlanks t)
      match skipBlanks rest with
      | '.' :: rest =>
          let (parts, rest) ← keyParts? fuel rest
          return (part :: parts, rest)
      | rest => return ([part], rest)

def key? (t : Text) : Option (List Text × Text) :=
  keyParts? maxDepth t

/-- The items of an array up to its closing bracket. -/
def items? (value : Text → Option (Toml × Text)) :
    (fuel : Nat) → Text → Option (List Toml × Text)
  | 0, _ => none
  | fuel + 1, t => do
      match skipLines t.length t with
      | ']' :: rest => return ([], rest)
      | t =>
          let (item, rest) ← value t
          match skipLines rest.length rest with
          | ',' :: rest =>
              let (items, rest) ← items? value fuel rest
              return (item :: items, rest)
          | ']' :: rest => return ([item], rest)
          | _ => none

def keyValue? (value : Text → Option (Toml × Text)) (t : Text) :
    Option ((List Text × Toml) × Text) := do
  let (key, rest) ← key? t
  let (v, rest) ← value (skipBlanks (← after? '=' rest))
  return ((key, v), rest)

/-- The members of an inline table that is not empty, up to its closing brace. -/
def members? (value : Text → Option (Toml × Text)) (m : Members) :
    (fuel : Nat) → Text → Option (Members × Text)
  | 0, _ => none
  | fuel + 1, t => do
      let ((key, v), rest) ← keyValue? value t
      let m ← Members.assignUnder [] key v m
      match skipBlanks rest with
      | ',' :: rest => members? value m fuel rest
      | '\x7d' :: rest => return (m, rest)
      | _ => none

/-- The value at the start of a text, in which containers nest at most `depth` deep. -/
def value? : (depth : Nat) → Text → Option (Toml × Text)
  | depth, t =>
      match t with
      | 't' :: 'r' :: 'u' :: 'e' :: rest => some (.boolean true, rest)
      | 'f' :: 'a' :: 'l' :: 's' :: 'e' :: rest => some (.boolean false, rest)
      | '"' :: _ => (quoted? t).map fun (s, rest) => (.string s, rest)
      | '\'' :: _ => (quoted? t).map fun (s, rest) => (.string s, rest)
      | '[' :: rest =>
          match depth with
          | 0 => none
          | depth + 1 =>
              (items? (value? depth) (rest.length + 1) rest).map fun (items, rest) =>
                (.array items, rest)
      | '\x7b' :: rest =>
          match depth with
          | 0 => none
          | depth + 1 =>
              match skipBlanks rest with
              | '\x7d' :: rest => some (.table [], rest)
              | inside =>
                  (members? (value? depth) [] (rest.length + 1) inside).map fun (m, rest) =>
                    (.table (closeMembers m), rest)
      | _ => number? t

/-- What follows the two characters at the start of a text. -/
def afterBoth? (a b : Char) (t : Text) : Option Text :=
  (after? a t).bind (after? b)

/-- Read lines up to the end of a document; `header` names the table they belong to. -/
def readLines (header : List Text) (m : Members) : (fuel : Nat) → Text → Option Members
  | 0, _ => none
  | fuel + 1, t =>
      match skipBlanks t with
      | [] => some m
      | '[' :: '[' :: rest => do
          let (path, rest) ← key? rest
          let rest ← afterLine? (← afterBoth? ']' ']' rest)
          readLines path (← m.openElement path) fuel rest
      | '[' :: rest => do
          let (path, rest) ← key? rest
          let rest ← afterLine? (← after? ']' rest)
          readLines path (← m.openTable path) fuel rest
      | c :: rest =>
          if c = '#' ∨ c = '\n' ∨ c = '\r' then
            (afterLine? (c :: rest)).bind (readLines header m fuel)
          else do
            let ((key, v), rest) ← keyValue? (value? maxDepth) (c :: rest)
            readLines header (← m.assignUnder header key v) fuel (← afterLine? rest)

/-- The members of the document that a text is; a byte order mark may begin it. -/
def ofText? (t : Text) : Option (List (Text × Toml)) :=
  let body := if t.head? = some '\ufeff' then t.tail else t
  (readLines [] [] (body.length + 1) body).map closeMembers

end SqlInsight.Toml
