/-
Positions in a text, as an editor shows them: lines and columns count from one, and a column counts
characters. A byte offset and a position determine each other up to clamping at the line ends.
-/
import SqlInsight.Text.Basic

namespace SqlInsight

/-- A line and a column, both counted from one. -/
structure Position where
  line : Nat
  column : Nat
deriving Repr, BEq, DecidableEq, Inhabited

namespace Position

/-- Reading order: earlier lines first, then earlier columns. -/
def before (a b : Position) : Bool :=
  a.line < b.line || (a.line == b.line && a.column < b.column)

/-- Reading order or equality. -/
def atOrBefore (a b : Position) : Bool :=
  a.line < b.line || (a.line == b.line && a.column ≤ b.column)

end Position

/-- A stretch of text from one position up to another. -/
structure Range where
  first : Position
  last : Position
deriving Repr, BEq, DecidableEq, Inhabited

namespace Range

def onLine (line column length : Nat) : Range :=
  ⟨⟨line, column⟩, ⟨line, column + length⟩⟩

end Range

namespace Text

def lineCount (t : Text) : Nat :=
  t.lines.length

/-- A line without the carriage returns at its end. -/
def trimReturns (line : Text) : Text :=
  line.dropEndWhile (· == '\r')

/-- The text of a line, counted from one, without its terminator. -/
def line? (t : Text) (line : Nat) : Option Text :=
  if line = 0 then none else (t.lines[line - 1]?).map trimReturns

/-- The position `n` bytes on, when the text starts at `p`; at most the end of the text. -/
def positionFrom (p : Position) (n : Nat) : Text → Position
  | [] => p
  | c :: rest =>
      if n = 0 then p
      else if c = '\n' then positionFrom ⟨p.line + 1, 1⟩ (n - 1) rest
      else positionFrom ⟨p.line, p.column + 1⟩ (n - c.utf8Size) rest

/-- The position of a byte offset; beyond the text, that of its end. -/
def position (t : Text) (offset : Nat) : Position :=
  positionFrom ⟨1, 1⟩ offset t

/-- The byte offset at which the first line of the list starts when the lines before it end at
`offset`, `count` lines on. -/
def lineStartFrom (offset : Nat) : (count : Nat) → List Text → Nat
  | 0, _ => offset
  | _ + 1, [] => offset
  | count + 1, line :: rest => lineStartFrom (offset + line.size + 1) count rest

/-- The byte offset of a position; a column past the end of its line is clamped to it. -/
def offset? (t : Text) (p : Position) : Option Nat :=
  (t.line? p.line).map fun line =>
    lineStartFrom 0 (p.line - 1) t.lines + size (line.take (p.column - 1))

end Text

end SqlInsight
