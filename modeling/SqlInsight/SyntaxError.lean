/-
Why a text could not be read. A message of the grammar may end in the place of the trouble, from
which the place is read back.
-/
import SqlInsight.Diagnostic
import SqlInsight.Text.CharClass

namespace SqlInsight

/-- Why a text could not be read. -/
inductive SyntaxError where
  | refused (message : Text)
  | tooDeep
deriving Repr, DecidableEq, Inhabited

/-- A place in a message: what stands before it, the digits of the line and of the column, and what
follows. -/
structure PlaceMark where
  before : Text
  line : Text
  column : Text
  after : Text
deriving Repr, DecidableEq

namespace PlaceMark

def afterText? (start t : Text) : Option Text :=
  if t.startsWith start then some (t.drop start.length) else none

/-- The decimal digits at the start of a text, of which there must be one, and what follows. -/
def digits? (t : Text) : Option (Text × Text) :=
  let digits := t.takeWhile CharClass.isDecimal
  if digits.isEmpty then none else some (digits, t.drop digits.length)

/-- The place at the start of a text, after any blanks. -/
def atStart? (t : Text) : Option PlaceMark := do
  let t ← afterText? "at Line: ".toList t.trimStart
  let (line, t) ← digits? t
  let t ← afterText? ", Column: ".toList t
  let (column, after) ← digits? t
  return ⟨[], line, column, after⟩

def first? : Text → Option PlaceMark
  | [] => none
  | c :: rest =>
      match atStart? (c :: rest) with
      | some mark => some mark
      | none => (first? rest).map fun mark => { mark with before := c :: mark.before }

/-- The number that digits spell, unless it needs more than 64 bits. -/
def number? (digits : Text) : Option Nat :=
  let n := digits.foldl (fun n c => n * 10 + (c.toNat - '0'.toNat)) 0
  if digits.all Char.isDigit && n < UInt64.size then some n else none

/-- The position that a place spells; lines and columns count from one. -/
def position? (mark : PlaceMark) : Option Position := do
  let line ← number? mark.line
  let column ← number? mark.column
  if line = 0 ∨ column = 0 then none else some ⟨line, column⟩

end PlaceMark

namespace SyntaxError

/-- The whole message, which says that it comes from the grammar. -/
def message : SyntaxError → Text
  | refused message => "sql parser error: ".toList ++ message
  | tooDeep => "sql parser error: recursion limit exceeded".toList

/-- Where the trouble is, if the message tells. -/
def place? (e : SyntaxError) : Option Position :=
  (PlaceMark.first? e.message).bind PlaceMark.position?

/-- The message without the place. -/
def detail (e : SyntaxError) : Text :=
  let message :=
    match e with
    | refused message => message
    | tooDeep => e.message
  match PlaceMark.first? message with
  | some mark => Text.trim (mark.before ++ mark.after)
  | none => Text.trim message

/-- The finding for a text that could not be read and starts on that line of the buffer. It marks
the word at the place of the trouble. -/
def diagnostic (e : SyntaxError) (t : Text) (startLine : Nat) : Diagnostic :=
  let place := e.place?.getD ⟨1, 1⟩
  let width :=
    match t.offset? place with
    | some offset => ((t.dropBytes offset).takeWhile CharClass.isName).length
    | none => 0
  { Diagnostic.create .syntaxError .error ("Syntax error: ".toList ++ e.detail) with
    range := Range.onLine (startLine + place.line - 1) place.column (max width 1) }

end SyntaxError

end SqlInsight
