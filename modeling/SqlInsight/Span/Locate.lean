/-
The statement that a position belongs to: the one that contains it, else the last one before it,
else the first one. In a batch that cannot be read the lines of the buffer alone decide: a statement
is bounded by blank lines, separator lines, semicolons, and lines that begin with the first word of
a statement outside parentheses.
-/
import SqlInsight.Span

namespace SqlInsight.Span

def leadingWords : List String :=
  ["SELECT", "INSERT", "UPDATE", "DELETE", "MERGE", "WITH", "CREATE", "ALTER", "DROP", "TRUNCATE",
    "EXEC", "EXECUTE", "DECLARE", "USE", "PRINT"]

/-- A line of a buffer: where it starts and ends, and its masked text. -/
structure MaskedLine where
  first : Nat
  last : Nat
  text : Text
deriving Repr

/-- The lines of a masked buffer, given with those of the buffer itself, from `offset` on. -/
def maskedLinesFrom (offset : Nat) : List (Text × Text) → List MaskedLine
  | [] => []
  | (line, masked) :: rest =>
      let size := (Text.trimReturns line).size
      ⟨offset, offset + size, masked.takeBytes size⟩
        :: maskedLinesFrom (offset + line.size + 1) rest

/-- The lines of a buffer, masked but for its code. -/
def maskedLines (t : Text) : List MaskedLine :=
  maskedLinesFrom 0 (t.lines.zip (t.mask .identifiers).lines)

namespace MaskedLine

/-- Whether no statement goes over a line: a blank one or a separator. -/
def isBreak (separator : Text) (line : MaskedLine) : Bool :=
  line.text.isBlank || Batch.isSeparatorLine separator line.text

def isTerminated (line : MaskedLine) : Bool :=
  line.text.trimEnd.getLast? == some ';'

/-- Whether a line begins with a word that begins a statement. -/
def startsStatement (line : MaskedLine) : Bool :=
  let word := line.text.trimStart.takeWhile Char.isAlpha
  leadingWords.any fun w => Text.sameAscii word w.toList

end MaskedLine

/-- How many parentheses are open after a text when `depth` are open before it; one too many that
closes does not count. -/
def openAfter (depth : Nat) : Text → Nat
  | [] => depth
  | c :: rest =>
      openAfter (if c = '(' then depth + 1 else if c = ')' then depth - 1 else depth) rest

/-- Whether no parenthesis is open at one offset since another. -/
def isOuter (masked : Text) (first last : Nat) : Bool :=
  openAfter 0 (masked.slice first last) == 0

/-- Where the statement starts that goes on in these lines when it starts at `first` or later:
at the last of the lines that begins a statement. -/
def startIn (masked : Text) (first : Nat) : List MaskedLine → Nat
  | [] => first
  | line :: rest =>
      let begins :=
        first < line.first && isOuter masked first line.first && line.startsStatement
      startIn masked (if begins then line.first else first) rest

/-- The offset after the last semicolon of a stretch, or that of its start. -/
def afterSemicolon (masked : Text) (first last : Nat) : Nat :=
  let tail := (masked.slice first last).reverse.takeWhile (· != ';')
  last - Text.size tail

/-- Where the statement that starts at `first` ends when the lines after those up to `last` follow
it. -/
def endIn (separator masked : Text) (first last : Nat) : List MaskedLine → Nat
  | [] => last
  | line :: rest =>
      if line.isBreak separator then last
      else if isOuter masked first line.first && line.startsStatement then last
      else
        match line.text.find? [';'] with
        | some offset => line.first + offset
        | none => endIn separator masked first line.last rest

/-- The extent of the statement around the offset `cursor` on a line, between the lines before it,
the nearest one first, and those after it. -/
def extentAround? (separator t : Text) (cursor : Nat) (before : List MaskedLine)
    (line : MaskedLine) (after : List MaskedLine) : Option Extent :=
  if line.isBreak separator then none
  else
    let masked := t.mask .identifiers
    let own := (before.takeWhile fun l => !l.isBreak separator && !l.isTerminated).reverse ++ [line]
    let start := (own.head?.getD line).first
    let first := startIn masked (afterSemicolon masked start cursor) own.tail
    let last :=
      match (masked.slice cursor line.last).find? [';'] with
      | some offset => cursor + offset
      | none => endIn separator masked first line.last after
    let raw := t.slice first last
    if raw.isBlankSql then none
    else
      let first := first + (raw.size - raw.trimStart.size)
      some ⟨first, first + raw.trim.size, 0⟩

/-- The extent of the statement around the offset `cursor`, which lies on the line of that number,
counted from one. -/
def scanLines? (separator t : Text) (number cursor : Nat) : Option Extent :=
  let lines := maskedLines t
  match lines.drop (number - 1) with
  | [] => none
  | line :: after => extentAround? separator t cursor (lines.take (number - 1)).reverse line after

/-- The batch that has a line: one that covers it, else the last one that starts before it, else the
first one. -/
def batchAt? (t : Text) (batches : List Batch) (line : Nat) : Option Batch :=
  let covers := batches.find? fun b =>
    b.startLine ≤ line && line ≤ (t.position (b.offset + b.text.size)).line
  (covers.or (batches.reverse.find? fun b => b.startLine ≤ line)).or batches.head?

def choose? (extents : List Extent) (offset : Nat) : Option Extent :=
  ((extents.find? fun x => x.holds offset).or
    (extents.reverse.find? fun x => x.last < offset)).or extents.head?

/-- The statement that a position belongs to, if there is one and the buffer has that line. -/
def locate? (e : Engine) (t : Text) (p : Position) : Option Span := do
  let cursor ← t.offset? p
  let batch ← batchAt? t (Batch.split e.settings.batchSeparator t) p.line
  let extent ←
    match Extent.ofReading? e batch with
    | some extents => choose? extents cursor
    | none => scanLines? e.settings.batchSeparator t p.line cursor
  return extent.span t

end SqlInsight.Span
