/-
The findings in a buffer. A batch that cannot be read has one finding; the statements of one that
can be read are checked against the snapshot, if there is one. Every finding has its place in the
text as it was written.
-/
import SqlInsight.Batch
import SqlInsight.Engine
import SqlInsight.Validation.Walk

namespace SqlInsight.Validation

structure StatementText where
  text : Text
  first : Nat

/-- The texts of the statements of a batch. If there are not as many pieces as statements, each
statement has the whole batch for its text. -/
def statementTexts (batch : Text) (statements : List Outline.Statement) :
    List (Outline.Statement × StatementText) :=
  let pieces := Piece.split batch
  if pieces.length = statements.length then
    statements.zip (pieces.map fun p => ⟨p.text, p.first⟩)
  else statements.map (·, ⟨batch, 0⟩)

def firstWordSize (t : Text) : Nat :=
  let word := t.trimStart.takeWhile fun c => !CharClass.isBlank c
  if word.isEmpty then 1 else Text.size word

/-- How many columns wide the bytes of a text are; at least one. -/
def width (t : Text) (offset size : Nat) : Nat :=
  if t.isBoundary offset && t.isBoundary (offset + size) then
    max 1 (t.slice offset (offset + size)).length
  else 1

/-- Where an anchor is marked in a text: after the places where it was marked before, or else where
it is written first, or else at the start. Comes with the places marked now. -/
def mark (t : Text) (marked : List (Anchor × Nat)) (anchor : Anchor) :
    (Nat × Nat) × List (Anchor × Nat) :=
  match (anchor.find? t ((marked.lookup anchor).getD 0)).or (anchor.find? t 0) with
  | some (offset, size) => ((offset, size), Keyed.put anchor (offset + size) marked)
  | none => ((0, firstWordSize t), marked)

/-- The range in the buffer of some bytes of a statement. -/
def rangeOf (batch : Batch) (s : StatementText) (place : Nat × Nat) : Range :=
  let p := batch.text.position (s.first + place.1)
  Range.onLine (batch.startLine + p.line - 1) p.column (width s.text place.1 place.2)

def Finding.diagnostic (f : Finding) (range : Range) : Diagnostic :=
  let d := { Diagnostic.create f.code f.severity f.message with range }
  match f.suggestion with
  | some name => d.suggesting name
  | none => d

def place (batch : Batch) (s : StatementText) (marked : List (Anchor × Nat)) :
    List Finding → List Diagnostic
  | [] => []
  | f :: rest =>
      let (spot, marked) := mark s.text marked f.anchor
      f.diagnostic (rangeOf batch s spot) :: place batch s marked rest

def statementFindings (s : Settings) (schema : Schema) (statement : Outline.Statement) (t : Text) :
    List Finding :=
  (Checker.checkStatement ⟨s, ⟨schema, []⟩, [], []⟩ t statement).findings

def batchDiagnostics (e : Engine) (schema : Option Schema) (batch : Batch) : List Diagnostic :=
  match e.ladder.readStrictly batch.text with
  | .error failure => [failure.diagnostic batch.text batch.startLine]
  | .ok reading =>
      match schema with
      | none => []
      | some schema =>
          (statementTexts batch.text reading.statements).flatMap fun (statement, s) =>
            place batch s [] (statementFindings e.settings schema statement s.text)

/-- The finding with the severity that the settings give to its kind. -/
def relabel (s : Settings) (d : Diagnostic) : Diagnostic :=
  { d with severity := s.severityOf d.code d.severity }

/-- The findings in a buffer, batch by batch. -/
def found (e : Engine) (schema : Option Schema) (t : Text) : List Diagnostic :=
  (Batch.split e.settings.batchSeparator t).flatMap fun batch =>
    (batchDiagnostics e schema batch).map (relabel e.settings)

/-- The findings in a buffer in the order of their places. Without a snapshot only those of the
grammar are found. -/
def validate (e : Engine) (schema : Option Schema) (t : Text) : List Diagnostic :=
  (found e schema t).mergeSort fun a b => a.range.first.atOrBefore b.range.first

end SqlInsight.Validation
