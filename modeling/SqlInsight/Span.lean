/-
The statements of a buffer and where they stand. A batch whose pieces are as many as the statements
read from it has one span for each piece; a batch with other statements in it is one span.
-/
import SqlInsight.Batch
import SqlInsight.Engine

namespace SqlInsight

/-- A statement without blanks around it: its text, where it starts and ends, and its place among
the statements of its batch. -/
structure Span where
  text : Text
  first : Position
  last : Position
  index : Nat
deriving Repr, DecidableEq

/-- The bytes of a buffer that a statement takes, and its place among those of its batch. -/
structure Extent where
  first : Nat
  last : Nat
  index : Nat
deriving Repr, DecidableEq

namespace Extent

/-- Whether a byte offset lies in the extent or at its end. -/
def holds (x : Extent) (offset : Nat) : Bool :=
  x.first ≤ offset && offset ≤ x.last

def span (t : Text) (x : Extent) : Span :=
  ⟨t.slice x.first x.last, t.position x.first, t.position x.last, x.index⟩

/-- The extents of some pieces of a batch, the first of which has that index. -/
def ofPieces (batch : Batch) (index : Nat) : List Piece → List Extent
  | [] => []
  | p :: rest =>
      ⟨batch.offset + p.first, batch.offset + p.last, index⟩ :: ofPieces batch (index + 1) rest

def ofBatch (batch : Batch) : List Extent :=
  ofPieces batch 0 (Piece.split batch.text)

/-- A text without blanks around it and semicolons at its end. -/
def withoutEnd (t : Text) : Text :=
  (Text.dropEndWhile (· == ';') t.trim).trimEnd

def whole? (batch : Batch) : Option Extent :=
  let statement := withoutEnd batch.text
  let first := batch.offset + (batch.text.size - batch.text.trimStart.size)
  if statement.isEmpty then none else some ⟨first, first + statement.size, 0⟩

/-- The extents of the statements of a batch, if it can be read. -/
def ofReading? (e : Engine) (batch : Batch) : Option (List Extent) :=
  match e.ladder.readStrictly batch.text with
  | .error _ => none
  | .ok reading =>
      let pieces := ofBatch batch
      if pieces.length = reading.statements.length then some pieces
      else (whole? batch).map ([·])

/-- The extents of the statements of a batch; those of its pieces if it cannot be read. -/
def ofStatements (e : Engine) (batch : Batch) : List Extent :=
  (ofReading? e batch).getD (ofBatch batch)

/-- The extents of the statements of a buffer in order. -/
def all (e : Engine) (t : Text) : List Extent :=
  (Batch.split e.settings.batchSeparator t).flatMap (ofStatements e)

end Extent

namespace Span

def contains (s : Span) (p : Position) : Bool :=
  s.first.atOrBefore p && p.atOrBefore s.last

/-- The statements of a buffer in order. -/
def all (e : Engine) (t : Text) : List Span :=
  (Extent.all e t).map (Extent.span t)

end Span

end SqlInsight
