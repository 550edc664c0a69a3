/-
Commands carried out. What a command finds around it is given to it; what it prints, the notes it
makes on the way and how it ends is its outcome.
-/
import SqlInsight.Command.Usage
import SqlInsight.Completion.Display
import SqlInsight.Project
import SqlInsight.Report
import SqlInsight.Span.Locate
import SqlInsight.Validation

namespace SqlInsight.Command

/-- What a command finds around it: files that it can look at and write, the time, and whether
colours are shown. -/
structure Surroundings (m : Type → Type) extends Files m where
  write : Text → Text → m Bool
  time : Text
  isColored : Bool

/-- How a command ended: its exit code, the lines it printed, the notes it made, and the line that
tells why it failed. -/
structure Outcome where
  code : Nat
  output : List Text
  notes : List Text
  failure : Option Text := none
deriving Repr, DecidableEq

/-- A computation that makes notes and may fail. -/
abbrev Act (m : Type → Type) (α : Type) :=
  ExceptT Text (StateT (List Text) m) α

namespace Act

variable {m : Type → Type} [Monad m] {α : Type}

def note (t : Text) : Act m Unit :=
  modify (· ++ [t])

def orFail (failure : Text) (load : m (Except LoadError α)) : Act m α := do
  match ← (load : StateT (List Text) m _) with
  | .ok a => return a
  | .error _ => throw failure

/-- Carry a computation out; a failure has the exit code one and prints nothing. -/
def outcome (act : Act m (Nat × List Text)) : m Outcome := do
  match ← act.run.run [] with
  | (.ok (code, output), notes) => return ⟨code, output, notes, none⟩
  | (.error failure, notes) => return ⟨1, [], notes, some ("Error: ".toList ++ failure)⟩

end Act

variable {m : Type → Type} [Monad m]

/-- The project of a request: that of the settings file it names, else that of the settings file in
the directory, else one with default settings. -/
def project (world : Surroundings m) (readers : Readers) (r : Request) : Act m Project := do
  match r.settingsFile with
  | some path =>
      Act.orFail ("Failed to load config from ".toList ++ path)
        (Project.load readers world.toFiles path)
  | none =>
      if ← world.isThere Project.fileName then
        Act.orFail ("Failed to load ".toList ++ Project.fileName)
          (Project.load readers world.toFiles Project.fileName)
      else
        if r.isVerbose then
          Act.note (Style.yellow.paint world.isColored
            "No config file found, using defaults".toList)
        return {}

def source (world : Surroundings m) (file : Text) : Act m Text := do
  match ← world.read? file with
  | some t => return t
  | none => throw ("Failed to read ".toList ++ file)

def labelled (world : Surroundings m) (style : Style) (label : String) (t : Text) : Text :=
  style.paint world.isColored label.toList ++ ' ' :: t

/-- The schema snapshot: the one that is named, else the one that the project names if it is there,
else none. -/
def snapshot (world : Surroundings m) (readers : Readers) (isVerbose : Bool) (p : Project)
    (path : Option Text) : Act m (Option Schema) := do
  let found ←
    match path, p.snapshotPath? with
    | some path, _ => pure (some path)
    | none, some path => pure (if ← world.isThere path then some path else none)
    | none, none => pure none
  match found with
  | none =>
      if isVerbose then
        Act.note (Style.yellow.paint world.isColored
          "No schema snapshot, checking syntax only".toList)
      return none
  | some path =>
      if isVerbose then
        Act.note (labelled world .cyan "Loading schema snapshot from:" path)
      let schema ← Act.orFail ("Failed to load schema snapshot ".toList ++ path)
        (Schema.load readers world.toFiles path)
      return some schema

/-- Carry out the validation of a file: its exit code tells whether there are errors. -/
def validated (world : Surroundings m) (parser : Parser) (readers : Readers) (isVerbose : Bool)
    (p : Project) (file : Text) (schema : Option Text) (asJson : Bool) (output : Option Text) :
    Act m (Nat × List Text) := do
  let t ← source world file
  let schema ← snapshot world readers isVerbose p schema
  if isVerbose then Act.note (labelled world .cyan "Validating" file)
  let report : Report := ⟨some file, Validation.validate ⟨parser, p.settings⟩ schema t⟩
  let json := (report.print world.time).toList
  if let some path := output then
    if !(← world.write path json) then throw ("Failed to write report to ".toList ++ path)
    if isVerbose then Act.note (labelled world .green "Report saved to:" path)
  return (if report.hasErrors then 1 else 0,
    if asJson then [json] else report.listing world.isColored file t)

/-- Where a statement starts and ends, as it is shown. -/
def placeText (s : Span) : Text :=
  s.first.text ++ '-' :: s.last.text

/-- The lines about the statement at a cursor; without one, the whole text. -/
def located (isColored : Bool) (e : Engine) (t : Text) (cursor : Position) : List Text :=
  match Span.locate? e t cursor with
  | some s => [Style.bold.paint isColored (placeText s), s.text]
  | none => [Style.yellow.paint isColored "no statement at cursor".toList, t.trim]

def aliasLine (isColored : Bool) (entry : Text × Binding) : Text :=
  let (key, b) := entry
  let columns :=
    if b.columns.isEmpty then []
    else " (".toList ++ List.intercalate ", ".toList b.columns ++ [')']
  List.replicate 2 ' ' ++ Style.cyan.paint isColored key ++ " -> ".toList ++ b.schema
    ++ '.' :: b.table ++ columns

/-- The lines about what belongs at a cursor and what the aliases around it stand for. -/
def completed (isColored : Bool) (e : Engine) (t : Text) (cursor : Position) (offset : Nat) :
    List Text :=
  let context := Completion.classify e (t.takeBytes offset) (some t)
  let around := ((Span.locate? e t cursor).map Span.text).getD t
  let aliases := References.sortEntries (References.extract e.ladder around).aliases
  [Style.bold.paint isColored "Context:".toList ++ ' '
      :: Style.green.paint isColored context.kind.toList,
    List.replicate 2 ' ' ++ context.text, [], Style.bold.paint isColored "Aliases:".toList]
    ++ (if aliases.isEmpty then ["  (none)".toList] else aliases.map (aliasLine isColored))

/-- The first line of a text, with dots if more lines follow. -/
def firstLine (t : Text) : Text :=
  let line := t.takeWhile (· != '\n')
  match t.dropWhile (· != '\n') with
  | [] => line
  | _ :: rest =>
      (if line.getLast? == some '\r' then line.dropLast else line)
        ++ (if rest.isEmpty then [] else " ...".toList)

def statementLine (isColored : Bool) (entry : Span × Nat) : Text :=
  let (s, index) := entry
  (toString (index + 1)).toList.leftpad 4 ' ' ++ List.replicate 2 ' '
    ++ Style.cyan.paint isColored (placeText s) ++ List.replicate 2 ' ' ++ firstLine s.text

/-- The lines about all statements of a text. -/
def listed (isColored : Bool) (e : Engine) (t : Text) : List Text :=
  let spans := Span.all e t
  if spans.isEmpty then [Style.yellow.paint isColored "No statements found".toList]
  else spans.zipIdx.map (statementLine isColored)

def act (world : Surroundings m) (parser : Parser) (readers : Readers) (r : Request) :
    Act m (Nat × List Text) := do
  let p ← project world readers r
  let e : Engine := ⟨parser, p.settings⟩
  match r.command with
  | .validate file schema asJson output =>
      validated world parser readers r.isVerbose p file schema asJson output
  | .locate file cursor => return (0, located world.isColored e (← source world file) cursor)
  | .complete file cursor => do
      let t ← source world file
      match t.offset? cursor with
      | none => throw (cursor.text ++ " is outside ".toList ++ file)
      | some offset => return (0, completed world.isColored e t cursor offset)
  | .statements file => return (0, listed world.isColored e (← source world file))

/-- Carry out a request and tell how it ended. -/
def perform (world : Surroundings m) (parser : Parser) (readers : Readers) (r : Request) :
    m Outcome :=
  (act world parser readers r).outcome

/-- How a command ends that is no request: misuse has the exit code two and is told about in
notes. -/
def Ending.outcome (isColored : Bool) : Ending → Outcome
  | .misuse => ⟨2, [], (usage .program).map (·.paint isColored), none⟩
  | .help topic => ⟨0, (usage topic).map (·.paint isColored), [], none⟩
  | .version => ⟨0, [versionLine], [], none⟩

/-- Carry out what arguments ask for and tell how it ended. -/
def run (world : Surroundings m) (parser : Parser) (readers : Readers) (arguments : List Text) :
    m Outcome :=
  match Request.ofArguments arguments with
  | .ok r => perform world parser readers r
  | .error ending => pure (ending.outcome world.isColored)

end SqlInsight.Command
