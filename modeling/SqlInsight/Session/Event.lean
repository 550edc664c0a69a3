/-
What happens in a session, and how it is answered. Requests have a reply; all else has none. Before
the session begins and after it ends, only its beginning and the time count.
-/
import SqlInsight.Completion.Candidate
import SqlInsight.Session.Publication
import SqlInsight.Session.Workspace
import SqlInsight.Span.Locate

namespace SqlInsight.Session

open Handler (look change tell)

/-- What happens in a session: it begins in a workspace or without one, the editor is ready, the
session ends; a document is opened, changed to the last of some texts, saved or closed; candidates
at a position or the statements of a document are asked for; or time passes. -/
inductive Event where
  | start (root : Option Text)
  | ready
  | stop
  | opened (uri t : Text)
  | changed (uri : Text) (texts : List Text)
  | saved (uri : Text) (t : Option Text)
  | closed (uri : Text)
  | candidates (uri : Text) (p : Position)
  | statements (uri : Text)
  | elapsed (time : Nat)
deriving Repr, DecidableEq

/-- Why a request is refused: the session has not begun, or the request has no place in it. -/
inductive Refusal where
  | notStarted
  | invalid
deriving Repr, DecidableEq

inductive Reply where
  | nothing
  | started
  | candidates (list : List Completion.Candidate)
  | statements (uri : Text) (list : List Span)
  | refused (why : Refusal)
deriving Repr, DecidableEq

/-- Find the candidates at a position of a document. -/
def complete (parser : Parser) (uri : Text) (p : Position) : Handler Reply := do
  match (← look).document? uri with
  | none => return .nothing
  | some d =>
      match d.text.offset? p with
      | none => return .nothing
      | some offset =>
          let e : Engine := ⟨parser, (← look).settings⟩
          let schema := (← look).schema
          let before := d.text.takeBytes offset
          let context := Completion.classify e before (some d.text)
          let around := ((Span.locate? e d.text p).map Span.text).getD before
          let r := References.extract e.ladder around
          return .candidates (Completion.candidates r schema context)

def listStatements (parser : Parser) (uri : Text) : Handler Reply := do
  match (← look).document? uri with
  | none => return .nothing
  | some d => return .statements uri (Span.all ⟨parser, (← look).settings⟩ d.text)

/-- Deal with the saving of a document, and of any other file of the workspace with it. -/
def save (parser : Parser) (readers : Readers) (files : Files Id) (uri : Text) (t : Option Text) :
    Handler Unit := do
  match t with
  | some t => do
      let version ← store uri t
      reload readers files
      publish parser uri version
  | none =>
      match (← look).version? uri with
      | none => return
      | some version => do
          reload readers files
          publish parser uri version

/-- Deal with what happens while a session is under way. -/
def Event.handler (parser : Parser) (readers : Readers) (files : Files Id) : Event → Handler Reply
  | .start root => do
      let _ ← change fun s => { s with root }
      reload readers files
      let _ ← change fun s => { s with phase := .running }
      return .started
  | .ready => do
      tell (.info "sqlsense LSP server initialized".toList)
      return .nothing
  | .stop => do
      let _ ← change fun s => { s with phase := .stopped }
      return .nothing
  | .opened uri t => do
      publish parser uri (← store uri t)
      return .nothing
  | .changed uri texts => do
      match texts.getLast? with
      | none => return .nothing
      | some t => do
          schedule uri (← store uri t)
          return .nothing
  | .saved uri t => do
      save parser readers files uri t
      return .nothing
  | .closed uri => do
      let _ ← change (·.withoutDocument uri)
      tell (.publish uri [])
      return .nothing
  | .candidates uri p => complete parser uri p
  | .statements uri => listStatements parser uri
  | .elapsed time => do
      let due := (← change fun s => { s with now := s.now + time }).dueTimers
      let _ ← change withoutDueTimers
      publishAll parser due
      return .nothing

/-- What an event comes to before a session begins or after it ends. -/
def Event.refused (why : Refusal) : Event → Reply
  | .start _ => .refused .invalid
  | .stop | .candidates _ _ | .statements _ => .refused why
  | .ready | .opened _ _ | .changed _ _ | .saved _ _ | .closed _ | .elapsed _ => .nothing

/-- What is done about an event in a phase of a session. -/
def Event.respond (parser : Parser) (readers : Readers) (files : Files Id) (phase : Phase)
    (e : Event) : Handler Reply :=
  match phase, e with
  | _, .elapsed _ | .fresh, .start _ => e.handler parser readers files
  | .running, .start _ => .finish (.refused .invalid)
  | .running, _ => e.handler parser readers files
  | .fresh, _ => .finish (e.refused .notStarted)
  | .stopped, _ => .finish (e.refused .invalid)

/-- Deal with an event and then with the validations that are due: the reply, the session then, and
the messages. -/
def handle (parser : Parser) (readers : Readers) (files : Files Id) (s : Session) (e : Event) :
    Reply × Session × List Message :=
  let (reply, after, sent) := (e.respond parser readers files s.phase).run s
  let (_, final, late) := (Event.handler parser readers files (.elapsed 0)).run after
  (reply, final, sent ++ late)

end SqlInsight.Session
