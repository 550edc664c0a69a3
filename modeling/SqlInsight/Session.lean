/-
A session with an editor: the documents that are open, the settings and the schema of the workspace,
and the validations that wait for their time. Each text that a document is given has a version of
its own; versions only grow.
-/
import SqlInsight.Keyed
import SqlInsight.Schema
import SqlInsight.Settings

namespace SqlInsight

/-- How far a session is: not begun, under way, or at its end. -/
inductive Session.Phase where
  | fresh
  | running
  | stopped
deriving Repr, DecidableEq

/-- The text of an open document and its version. -/
structure Session.Document where
  text : Text
  version : Nat
deriving Repr, DecidableEq

/-- A validation of a version of a document that is due at some time, in milliseconds. -/
structure Session.Timer where
  uri : Text
  version : Nat
  due : Nat
deriving Repr, DecidableEq

/-- A session with an editor. The timers stand in the order in which they are due. -/
structure Session where
  phase : Session.Phase := .fresh
  root : Option Text := none
  settings : Settings := {}
  schema : Option Schema := none
  documents : List (Text × Session.Document) := []
  lastVersion : Nat := 0
  timers : List Session.Timer := []
  now : Nat := 0
deriving Repr, DecidableEq

namespace Session

def document? (s : Session) (uri : Text) : Option Document :=
  s.documents.lookup uri

def version? (s : Session) (uri : Text) : Option Nat :=
  (s.document? uri).map Document.version

def withNextVersion (s : Session) : Session :=
  { s with lastVersion := s.lastVersion + 1 }

def withDocument (s : Session) (uri : Text) (d : Document) : Session :=
  { s with documents := Keyed.put uri d s.documents }

def withoutDocument (s : Session) (uri : Text) : Session :=
  { s with documents := s.documents.filter fun entry => entry.1 != uri }

/-- Put a timer behind those that are due no later. -/
def insertTimer (timer : Timer) : List Timer → List Timer
  | [] => [timer]
  | first :: rest =>
      if first.due ≤ timer.due then first :: insertTimer timer rest else timer :: first :: rest

def withTimer (s : Session) (uri : Text) (version : Nat) : Session :=
  { s with timers := insertTimer ⟨uri, version, s.now + s.settings.debounce⟩ s.timers }

def dueTimers (s : Session) : List Timer :=
  s.timers.takeWhile fun timer => timer.due ≤ s.now

def withoutDueTimers (s : Session) : Session :=
  { s with timers := s.timers.dropWhile fun timer => timer.due ≤ s.now }

end Session

end SqlInsight
