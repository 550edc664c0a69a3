/-
Cutting a buffer into batches at the lines that hold only the batch separator, and a batch into
statements at the semicolons of its code.
-/
import SqlInsight.Text.Position
import SqlInsight.Text.Search

namespace SqlInsight

/-- A stretch of the buffer between separator lines: its text, the line it starts on and the byte
offset at which it starts. The text keeps its blanks, so that its lines are those of the buffer. -/
structure Batch where
  text : Text
  startLine : Nat
  offset : Nat
deriving Repr, BEq

/-- One statement of a batch without blanks around it: its text, where it starts and ends in the
batch, and whether a semicolon closed it. -/
structure Piece where
  text : Text
  first : Nat
  last : Nat
  terminated : Bool
deriving Repr, BEq

namespace Batch

/-- Whether a masked line is the separator alone, or the separator and a count. -/
def isSeparatorLine (separator line : Text) : Bool :=
  let line := line.trim
  let rest := line.drop separator.length
  line.startsWithAscii separator
    && (rest.isEmpty
      || ((rest.head?.any CharClass.isBlank) && (Text.trim rest).all Char.isDigit))

/-- The lines of a batch that has not ended yet, the latest first. -/
structure Pending where
  startLine : Nat
  offset : Nat
  lines : List Text

/-- The batch of these lines, unless it holds no code. -/
def Pending.close? (p : Pending) : Option Batch :=
  let body := Text.dropEndWhile (fun c => c == '\n' || c == '\r')
    (List.intercalate ['\n'] p.lines.reverse)
  if body.isBlankSql then none else some ⟨body, p.startLine, p.offset⟩

/-- The batches of the lines from line `number` on, which starts at `offset`; each line comes with
its masked form. -/
def ofLines (separator : Text) (pending : Option Pending) (number offset : Nat) :
    List (Text × Text) → List Batch
  | [] => (pending.bind Pending.close?).toList
  | (line, masked) :: rest =>
      let next := offset + line.size + 1
      if isSeparatorLine separator masked then
        (pending.bind Pending.close?).toList ++ ofLines separator none (number + 1) next rest
      else
        let pending := pending.getD ⟨number, offset, []⟩
        ofLines separator (some { pending with lines := line :: pending.lines })
          (number + 1) next rest

/-- The batches of a buffer that hold code. -/
def split (separator t : Text) : List Batch :=
  ofLines separator none 1 0 (t.lines.zip (t.mask .identifiers).lines)

end Batch

namespace Piece

/-- Cut a text at the semicolons of its code; every stretch comes with whether one ended it. -/
def cut : List (Char × Region) → List (Text × Bool)
  | [] => [([], false)]
  | (c, r) :: rest =>
      if c = ';' ∧ r = .code then ([], true) :: cut rest
      else
        match cut rest with
        | [] => [([c], false)]
        | (t, terminated) :: more => (c :: t, terminated) :: more

/-- The piece of a stretch that starts at `offset`, unless it holds no code. -/
def ofStretch? (offset : Nat) (raw : Text) (terminated : Bool) : Option Piece :=
  if raw.isBlankSql then none
  else
    let first := offset + (raw.size - raw.trimStart.size)
    some ⟨raw.trim, first, first + raw.trim.size, terminated⟩

def ofStretches (offset : Nat) : List (Text × Bool) → List Piece
  | [] => []
  | (raw, terminated) :: rest =>
      (ofStretch? offset raw terminated).toList
        ++ ofStretches (offset + raw.size + if terminated then 1 else 0) rest

def split (batch : Text) : List Piece :=
  ofStretches 0 (cut batch.regions)

end Piece

end SqlInsight
