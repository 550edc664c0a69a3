/-
The findings in the documents of a session: published when a document is opened or saved, and some
time after it was changed. A version is looked at before it is validated and once more behind that:
its findings are not published if its document has another version by then.
-/
import SqlInsight.Session.Handler
import SqlInsight.Validation

namespace SqlInsight.Session

open Handler (look change tell)

/-- Give a document a text; the answer is its version. -/
def store (uri t : Text) : Handler Nat := do
  let version := (← change withNextVersion).lastVersion
  let _ ← change (·.withDocument uri ⟨t, version⟩)
  return version

/-- Validate a document and publish the findings, unless it has another version by then. -/
def publish (parser : Parser) (uri : Text) (version : Nat) : Handler Unit := do
  match (← look).document? uri with
  | none => return
  | some d =>
      if d.version ≠ version then return
      let settings := (← look).settings
      let schema := (← look).schema
      let found := Validation.validate ⟨parser, settings⟩ schema d.text
      if (← look).version? uri ≠ some version then return
      tell (.publish uri found)

/-- Have a version of a document validated when nothing has happened to it for a while. -/
def schedule (uri : Text) (version : Nat) : Handler Unit := do
  let _ ← change (·.withTimer uri version)
  return

/-- Carry out the validations that are due, one after the other. -/
def publishAll (parser : Parser) : List Timer → Handler Unit
  | [] => return
  | timer :: rest => do
      publish parser timer.uri timer.version
      publishAll parser rest

end SqlInsight.Session
