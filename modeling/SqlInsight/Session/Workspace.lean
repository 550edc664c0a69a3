/-
The workspace of a session: a directory with a settings file, which may name a schema snapshot. It
is loaded when the session begins and whenever a document is saved.
-/
import SqlInsight.Project
import SqlInsight.Session.Handler

namespace SqlInsight.Session

open Handler (look change tell)

/-- Why the settings could not be loaded, as the editor is told. -/
def projectWarning (path : Text) (e : LoadError) : Text :=
  let cause :=
    match e with
    | .unreadable => "IO error: Is a directory (os error 21)".toList
    | .malformed => "Parse error".toList
  "Failed to load config from ".toList ++ path ++ ": ".toList ++ cause

/-- Why the schema snapshot could not be loaded, as the editor is told. -/
def schemaWarning (path : Text) (e : LoadError) : Text :=
  let cause :=
    match e with
    | .unreadable =>
        "IO error: ".toList ++ path ++ ": No such file or directory (os error 2)".toList
    | .malformed => "Parse error".toList
  "Failed to load schema snapshot from ".toList ++ path ++ ": ".toList ++ cause

/-- The project of a directory, with the message about it; without a settings file that can be
loaded, one with default settings. -/
def loadProject (readers : Readers) (files : Files Id) (root : Text) : Project × List Message :=
  let path := Path.join root Project.fileName
  if (files.isThere path).run then
    match (Project.load readers files path).run with
    | .ok p => (p, [.info ("Loaded ".toList ++ Project.fileName)])
    | .error e => (⟨{}, root⟩, [.warning (projectWarning path e)])
  else (⟨{}, root⟩, [])

/-- The schema snapshot of a project, with the message about it. -/
def loadSchema (readers : Readers) (files : Files Id) (p : Project) :
    Option Schema × List Message :=
  match p.snapshotPath? with
  | none => (none, [])
  | some path =>
      match (Schema.load readers files path).run with
      | .ok s =>
          (some s, [.info ("Loaded schema snapshot for ".toList ++ s.database ++ " (".toList
            ++ (toString s.tables.length).toList ++ " tables)".toList)])
      | .error e => (none, [.warning (schemaWarning path e)])

/-- Send messages one after the other. -/
def tellAll : List Message → Handler Unit
  | [] => return
  | message :: rest => do
      tell message
      tellAll rest

/-- Load the workspace again, if the session has one: the schema is put in place first, then the
settings. -/
def reload (readers : Readers) (files : Files Id) : Handler Unit := do
  match (← look).root with
  | none => return
  | some root =>
      let (p, log) := loadProject readers files root
      tellAll log
      let (schema, log) := loadSchema readers files p
      tellAll log
      let _ ← change fun s => { s with schema }
      let _ ← change fun s => { s with settings := p.settings }

end SqlInsight.Session
