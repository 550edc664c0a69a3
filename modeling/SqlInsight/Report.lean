/-
A report: the findings in one text, where it came from, and how many findings of each severity there
are. As a listing it has each finding with the line it is about and a mark below its place, and the
numbers of findings at the end.
-/
import SqlInsight.Diagnostic.Json
import SqlInsight.Json.Printer
import SqlInsight.Style

namespace SqlInsight

/-- How many findings there are, all together and of each severity. -/
structure Summary where
  total : Nat
  errors : Nat
  warnings : Nat
  info : Nat
deriving Repr, DecidableEq

namespace Summary

def ofList (found : List Diagnostic) : Summary :=
  let count (s : Severity) : Nat := found.countP fun d => d.severity == s
  ⟨found.length, count .error, count .warning, count .info⟩

def toJson (s : Summary) : Json :=
  .object [("total", .natural s.total), ("errors", .natural s.errors),
    ("warnings", .natural s.warnings), ("info", .natural s.info)]

end Summary

/-- The findings in a text, and where it came from if that is known. -/
structure Report where
  source : Option Text := none
  diagnostics : List Diagnostic := []
deriving Repr, DecidableEq

namespace Report

/-- The version of the form of reports: a change of the first number breaks readers. -/
def version : Nat × Nat :=
  (1, 0)

def versionText : String :=
  toString version.1 ++ "." ++ toString version.2

/-- How many findings there are. -/
def summary (r : Report) : Summary :=
  Summary.ofList r.diagnostics

def add (r : Report) (d : Diagnostic) : Report :=
  { r with diagnostics := r.diagnostics ++ [d] }

/-- Whether there are errors among the findings. -/
def hasErrors (r : Report) : Bool :=
  0 < r.summary.errors

/-- A report made at some time, as an object. -/
def toJson (r : Report) (time : Text) : Json :=
  .object ([("version",
      .object [("major", .natural version.1), ("minor", .natural version.2)]),
    ("timestamp", Json.ofText time)]
    ++ (r.source.map fun s => ("source", Json.ofText s)).toList
    ++ [("summary", r.summary.toJson), ("diagnostics", .array (r.diagnostics.map
      Diagnostic.toJson))])

/-- A report made at some time, as text. -/
def print (r : Report) (time : Text) : String :=
  (r.toJson time).pretty

end Report

def Position.text (p : Position) : Text :=
  (toString p.line).toList ++ ':' :: (toString p.column).toList

def Severity.style : Severity → Style
  | .error => .boldRed
  | .warning => .boldYellow
  | .info => .cyan

namespace Diagnostic

/-- The line that names a finding in a file. -/
def headline (d : Diagnostic) (isColored : Bool) (file : Text) : Text :=
  file ++ ':' :: d.range.first.text
    ++ ' ' :: d.severity.style.paint isColored d.severity.name.toList
    ++ ' ' :: Style.bold.paint isColored d.code.name.toList ++ ' ' :: d.message

/-- How many marks stand below a finding: one for each column on its line, and at least one. -/
def markCount (d : Diagnostic) : Nat :=
  if d.range.last.line = d.range.first.line then
    max (d.range.last.column - d.range.first.column) 1
  else 1

/-- The lines about a finding; the line of the text is shown if the text has it. -/
def listing (d : Diagnostic) (isColored : Bool) (file t : Text) : List Text :=
  let indent := List.replicate 4 ' '
  d.headline isColored file ::
    match t.line? d.range.first.line with
    | none => []
    | some line =>
        [indent ++ line,
          indent ++ List.replicate (d.range.first.column - 1) ' '
            ++ Style.brightRed.paint isColored (List.replicate d.markCount '^')]

end Diagnostic

namespace Summary

/-- A number of findings, set off by whether there are any. -/
def count (isColored : Bool) (n : Nat) (what : String) (some none : Style) : Text :=
  (if 0 < n then some else none).paint isColored ((toString n).toList ++ ' ' :: what.toList)

def line (s : Summary) (isColored : Bool) : Text :=
  count isColored s.errors "errors" .boldRed .green ++ ", ".toList
    ++ count isColored s.warnings "warnings" .yellow .green ++ ", ".toList
    ++ (toString s.info).toList ++ " info".toList

end Summary

/-- The lines of a report about a text in a file. -/
def Report.listing (r : Report) (isColored : Bool) (file t : Text) : List Text :=
  (r.diagnostics.flatMap fun d => d.listing isColored file t)
    ++ (if r.diagnostics.isEmpty then [] else [[]])
    ++ [r.summary.line isColored]
    ++ (if r.diagnostics.isEmpty then
        [Style.boldGreen.paint isColored "✓ No issues found!".toList]
      else [])

end SqlInsight
