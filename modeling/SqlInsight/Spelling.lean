/-
Names that were probably meant: the nearest of some candidates by edit distance, where case does not
count and of equally near ones the first wins. The table of distances is computed in two rows that
take turns: while one of them is read, the other is written over what it held before.
-/
import SqlInsight.Text.CaseFold

namespace SqlInsight.Spelling

/-- Two rows of the table of distances: the last one that is complete, and the one that the next is
written into. -/
structure Rows where
  complete : Array Nat
  spare : Array Nat
deriving Repr, DecidableEq

/-- Write the entries of a row behind column `j`, one for each character of the second text that is
left. `c` is the character of the first text that the row is for. -/
def writeRow (c : Char) (above : Array Nat) : (j : Nat) → Text → (row : Array Nat) → Array Nat
  | _, [], row => row
  | j, d :: rest, row =>
      let cost := if c = d then 0 else 1
      let entry := min (min (above[j + 1]! + 1) (row[j]! + 1)) (above[j]! + cost)
      writeRow c above (j + 1) rest (row.set! (j + 1) entry)

namespace Rows

/-- The row for no characters of the first text, and one of zeros. -/
def start (columns : Nat) : Rows :=
  ⟨Array.range columns, Array.replicate columns 0⟩

/-- Write the row for the character at index `i` of the first text. The two rows change places. -/
def next (b : Text) (i : Nat) (c : Char) (rows : Rows) : Rows :=
  ⟨writeRow c rows.complete 0 b (rows.spare.set! 0 (i + 1)), rows.complete⟩

/-- Write the rows for the characters of the first text from index `i` on. -/
def run (b : Text) : (i : Nat) → Text → Rows → Rows
  | _, [], rows => rows
  | i, c :: rest, rows => run b (i + 1) rest (rows.next b i c)

end Rows

/-- The least number of single characters to insert, delete or replace to turn one text into the
other. -/
def distance (a b : Text) : Nat :=
  if a.isEmpty then b.length
  else if b.isEmpty then a.length
  else ((Rows.start (b.length + 1)).run b 0 a).complete[b.length]!

/-- The better of the best candidate so far and one more. -/
def better (name : Text) (most : Nat) (best : Option (Nat × Text)) (candidate : Text) :
    Option (Nat × Text) :=
  let d := distance name (Text.lower candidate)
  if most < d then best
  else
    match best with
    | some (least, _) => if d < least then some (d, candidate) else best
    | none => some (d, candidate)

/-- The first of the candidates that are nearest to the name, at distance `most` or less. -/
def nearest? (name : Text) (candidates : List Text) (most : Nat) : Option Text :=
  (candidates.foldl (better (Text.lower name) most) none).map Prod.snd

end SqlInsight.Spelling
