/-
Findings as JSON objects. The suggestion is left out where there is none.
-/
import SqlInsight.Diagnostic
import SqlInsight.Json.Record

namespace SqlInsight

def Position.toJson (p : Position) : Json :=
  .object [("line", .natural p.line), ("column", .natural p.column)]

def Range.toJson (r : Range) : Json :=
  .object [("start", r.first.toJson), ("end", r.last.toJson)]

def Diagnostic.toJson (d : Diagnostic) : Json :=
  .object ([("code", .string d.code.name), ("severity", .string d.severity.name),
    ("message", Json.ofText d.message), ("range", d.range.toJson)]
    ++ (d.suggestion.map fun s => ("suggestion", Json.ofText s)).toList)

end SqlInsight
