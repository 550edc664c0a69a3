/-
Full lower-case and upper-case forms of text. A capital sigma becomes a final sigma where it ends a
word: a cased letter stands before it and none after it, case-ignorable characters aside.
-/
import SqlInsight.Text.CharClass
import SqlInsight.Text.Table.Case

namespace SqlInsight.CaseFold

open Text.Table (CaseRun)

/-- Look for the run that holds `n` among those with indices from `lo` to below `hi`. -/
def searchRuns (runs : Array CaseRun) (n lo hi : Nat) : Option CaseRun :=
  if lo < hi then
    let middle := lo + (hi - lo) / 2
    match runs[middle]? with
    | none => none
    | some run =>
        if n < run.first then searchRuns runs n lo middle
        else if run.last < n then searchRuns runs n (middle + 1) hi
        else some run
  else none
termination_by hi - lo

/-- The image of `n` under the runs; `n` itself where no run reaches it. -/
def applyRuns (runs : Array CaseRun) (n : Nat) : Nat :=
  match searchRuns runs n 0 runs.size with
  | some run => if (n - run.first) % run.step = 0 then (n + run.shift : Int).toNat else n
  | none => n

/-- The image of one character: a special mapping if there is one, else that of the runs. -/
def mapChar (runs : Array CaseRun) (special : Array (Nat × List Nat)) (c : Char) : Text :=
  match special.find? (·.1 == c.toNat) with
  | some (_, image) => image.map Char.ofNat
  | none => [Char.ofNat (applyRuns runs c.toNat)]

/-- The lower-case form of one character, whatever stands around it. -/
def lowerChar (c : Char) : Text :=
  if c.toNat < 128 then [c.toLower] else mapChar Text.Table.lowerRuns Text.Table.lowerSpecial c

def upperChar (c : Char) : Text :=
  if c.toNat < 128 then [c.toUpper] else mapChar Text.Table.upperRuns Text.Table.upperSpecial c

/-- Whether the first character that is not case-ignorable is cased. -/
def meetsCased (t : Text) : Bool :=
  match t.dropWhile CharClass.isCaseIgnorable with
  | c :: _ => CharClass.isCased c
  | [] => false

/-- The lower-case form of the text after `before`, which is given in reverse. -/
def lowerFrom (before : Text) : Text → Text
  | [] => []
  | c :: rest =>
      let image :=
        if c.toNat = 0x3a3 then
          [Char.ofNat (if meetsCased before && !meetsCased rest then 0x3c2 else 0x3c3)]
        else lowerChar c
      image ++ lowerFrom (c :: before) rest

end SqlInsight.CaseFold

namespace SqlInsight.Text

def lower (t : Text) : Text :=
  CaseFold.lowerFrom [] t

def upper (t : Text) : Text :=
  t.flatMap CaseFold.upperChar

end SqlInsight.Text
