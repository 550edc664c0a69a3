/-
The messages and replies of a session in the form in which an editor gets them. There lines and
columns count from zero.
-/
import SqlInsight.Json.Record
import SqlInsight.Session.Event

namespace SqlInsight

/-- A position with lines and columns that count from zero, in thirty-two bits. -/
def Position.toEditor (p : Position) : Json :=
  .object [("line", .natural ((p.line - 1) % UInt32.size)),
    ("character", .natural ((p.column - 1) % UInt32.size))]

def Range.toEditor (r : Range) : Json :=
  .object [("start", r.first.toEditor), ("end", r.last.toEditor)]

def Severity.editorNumber : Severity → Nat
  | .error => 1
  | .warning => 2
  | .info => 3

/-- A finding in the form in which an editor gets it. -/
def Diagnostic.toEditor (d : Diagnostic) : Json :=
  .object [("range", d.range.toEditor), ("severity", .natural d.severity.editorNumber),
    ("code", .string d.code.name), ("source", .string "sqlsense"),
    ("message", Json.ofText d.message)]

namespace Completion.CandidateKind

def editorNumber : CandidateKind → Nat
  | .routine => 3
  | .column => 5
  | .view => 8
  | .database => 9
  | .keyword => 14
  | .cte => 18
  | .schema => 19
  | .table => 22

end Completion.CandidateKind

namespace Session

namespace Message

def method : Message → String
  | info _ | warning _ => "window/logMessage"
  | publish _ _ => "textDocument/publishDiagnostics"

def logLine (importance : Nat) (t : Text) : Json :=
  .object [("type", .natural importance), ("message", Json.ofText t)]

def params : Message → Json
  | info t => logLine 3 t
  | warning t => logLine 2 t
  | publish uri found =>
      .object [("uri", Json.ofText uri), ("diagnostics", .array (found.map Diagnostic.toEditor))]

end Message

/-- What the session can do for an editor: it takes documents as a whole, also when they are saved,
completes names after a dot or a blank, and lists statements. -/
def capabilities : Json :=
  let sync := .object [("openClose", .bool true), ("change", .natural 1),
    ("save", .object [("includeText", .bool true)])]
  .object [("capabilities", .object [("textDocumentSync", sync),
      ("completionProvider", .object [("triggerCharacters", .array [.string ".", .string " "])]),
      ("codeLensProvider", .object [("resolveProvider", .bool false)])]),
    ("serverInfo",
      .object [("name", .string "sqlsense-lsp"), ("version", .string "0.1.0")])]

/-- The lens over a statement, with the command that runs it. -/
def lens (uri : Text) (s : Span) : Json :=
  .object [("range", Range.toEditor ⟨s.first, s.last⟩),
    ("command", .object [("title", .string "Run"), ("command", .string "sqlsense.runStatement"),
      ("arguments", .array [Json.ofText uri, Json.ofText s.text])])]

/-- A candidate in the form in which an editor gets it. -/
def candidateJson (c : Completion.Candidate) : Json :=
  .object ([("label", Json.ofText c.label), ("kind", .natural c.kind.editorNumber)]
    ++ (c.detail.map fun t => ("detail", Json.ofText t)).toList)

def Refusal.editorNumber : Refusal → Json
  | .notStarted => .negative 32002
  | .invalid => .negative 32600

/-- A reply in the form in which an editor gets it, or the reason why there is none. -/
def Reply.toJson : Reply → Except Refusal Json
  | .nothing => .ok .null
  | .started => .ok capabilities
  | .candidates list => .ok (.array (list.map candidateJson))
  | .statements uri list => .ok (.array (list.map (lens uri)))
  | .refused why => .error why

end Session

end SqlInsight
