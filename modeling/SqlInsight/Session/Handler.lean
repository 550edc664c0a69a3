/-
How a session deals with what happens: in steps, between which other things may happen. A step
looks at the session and changes it, or sends a message to the editor.
-/
import SqlInsight.Diagnostic
import SqlInsight.Session

namespace SqlInsight.Session

/-- A message to the editor: a line of its log, or the findings in a document in place of earlier
ones. -/
inductive Message where
  | info (t : Text)
  | warning (t : Text)
  | publish (uri : Text) (found : List Diagnostic)
deriving Repr, DecidableEq

/-- What is left to do, and the answer at the end. -/
inductive Handler (α : Type) where
  | finish (answer : α)
  | access (change : Session → Session) (next : Session → Handler α)
  | send (message : Message) (next : Handler α)

namespace Handler

variable {α β : Type}

def andThen (next : α → Handler β) : Handler α → Handler β
  | finish answer => next answer
  | access change rest => .access change fun s => andThen next (rest s)
  | send message rest => .send message (andThen next rest)

instance : Monad Handler where
  pure := finish
  bind h next := h.andThen next

def look : Handler Session :=
  .access id .finish

def change (f : Session → Session) : Handler Session :=
  .access f .finish

def tell (message : Message) : Handler Unit :=
  .send message (.finish ())

/-- Take all steps without anything between them: the answer, the session then, and the messages. -/
def run : Handler α → Session → α × Session × List Message
  | finish answer, s => (answer, s, [])
  | access change next, s => (next (change s)).run (change s)
  | send message next, s =>
      let (answer, after, sent) := next.run s
      (answer, after, message :: sent)

theorem run_andThen (h : Handler α) (next : α → Handler β) (s : Session) :
    (h.andThen next).run s =
      let (answer, after, sent) := h.run s
      let (last, final, more) := (next answer).run after
      (last, final, sent ++ more) := by
  induction h generalizing s with
  | finish answer => simp [andThen, run]
  | access change rest ih => simp [andThen, run, ih]
  | send message rest ih => simp [andThen, run, ih]

end Handler

end SqlInsight.Session
