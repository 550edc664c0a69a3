/-
Settings and the directory they belong to, from which the path of the schema snapshot starts; and
how both are loaded from files and saved in them. What reads and writes the texts of the files is
given.
-/
import SqlInsight.Files
import SqlInsight.Schema.Json
import SqlInsight.Settings.Toml

namespace SqlInsight

/-- What reads the texts of files: the members of a TOML document, and a JSON value. -/
structure Readers where
  toml? : Text → Option (List (Text × Toml))
  json? : Text → Option Json

/-- Why a file could not be loaded: it cannot be read, or its text has not the form it should. -/
inductive LoadError where
  | unreadable
  | malformed
deriving Repr, DecidableEq

/-- Why a file could not be saved: there is no text for what it should hold, or it cannot be
written. -/
inductive SaveError where
  | unprintable
  | unwritable
deriving Repr, DecidableEq

/-- Settings and the directory they belong to. -/
structure Project where
  settings : Settings := {}
  directory : Text := []
deriving Repr, DecidableEq

/-- Read a file, and take its text for what the function makes of it. -/
def Files.load {α : Type} {m : Type → Type} [Monad m] (files : Files m) (ofText? : Text → Option α)
    (path : Text) : m (Except LoadError α) := do
  match ← files.read? path with
  | none => return .error .unreadable
  | some t =>
      match ofText? t with
      | none => return .error .malformed
      | some a => return .ok a

namespace Project

/-- The name under which a directory holds its settings. -/
def fileName : Text :=
  "sqlsense.toml".toList

def ofToml? (readers : Readers) (path t : Text) : Option Project := do
  let members ← readers.toml? t
  let settings ← Settings.ofToml? members
  return ⟨settings, Path.parent path⟩

/-- The path of the schema snapshot, if the settings name one. -/
def snapshotPath? (p : Project) : Option Text :=
  p.settings.snapshotFile.map (Path.join p.directory)

variable {m : Type → Type} [Monad m]

def load (readers : Readers) (files : Files m) (path : Text) : m (Except LoadError Project) :=
  files.load (ofToml? readers path) path

/-- Save the settings of a project in a file, as the text that `print?` makes of the document. -/
def save (print? : List (Text × Toml) → Option Text) (write : Text → Text → m Bool) (p : Project)
    (path : Text) : m (Except SaveError Unit) := do
  match print? p.settings.toToml with
  | none => return .error .unprintable
  | some t => return if ← write path t then .ok () else .error .unwritable

end Project

def Schema.load {m : Type → Type} [Monad m] (readers : Readers) (files : Files m) (path : Text) :
    m (Except LoadError Schema) :=
  files.load (fun t => (readers.json? t).bind Schema.ofJson?) path

end SqlInsight
