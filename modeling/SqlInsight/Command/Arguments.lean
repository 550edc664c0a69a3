/-
What the command line can be asked for, and requests read from its arguments: first the flags that
go with any command, then the name of the command, then its file and its own flags. The first
argument that does not fit, or that asks for help, ends the reading.
-/
import SqlInsight.Text.Digits
import SqlInsight.Text.Position

namespace SqlInsight

/-- What is asked for: the findings in a file, the statement at a cursor, what belongs at a cursor,
or all statements of a file. -/
inductive Command where
  | validate (file : Text) (schema : Option Text) (asJson : Bool) (output : Option Text)
  | locate (file : Text) (cursor : Position)
  | complete (file : Text) (cursor : Position)
  | statements (file : Text)
deriving Repr, DecidableEq

/-- A command with the settings file to use and whether to tell what is being done. -/
structure Request where
  settingsFile : Option Text
  isVerbose : Bool
  command : Command
deriving Repr, DecidableEq

end SqlInsight

namespace SqlInsight.Command

inductive Verb where
  | validate
  | locate
  | complete
  | statements
deriving Repr, DecidableEq

namespace Verb

def name : Verb → String
  | validate => "validate"
  | locate => "locate"
  | complete => "complete"
  | statements => "statements"

def all : List Verb :=
  [validate, locate, complete, statements]

def ofName? (t : Text) : Option Verb :=
  all.find? fun v => v.name.toList == t

end Verb

inductive Flag where
  | config
  | verbose
  | help
  | version
  | schema
  | json
  | output
  | line
  | column
deriving Repr, DecidableEq

/-- What follows a flag: nothing, a path, or a number. -/
inductive Operand where
  | nothing
  | path
  | number
deriving Repr, DecidableEq

/-- The number that decimal digits write, after a plus sign or without one; at most 64 bits. -/
def number? (t : Text) : Option Nat :=
  let digits := if t.head? == some '+' then t.drop 1 else t
  let n := Text.ofDigits 10 digits
  if !digits.isEmpty && digits.all (Text.isDigitIn 10) && n < UInt64.size then some n else none

/-- Whether a text can stand for such an operand. -/
def Operand.fits (t : Text) : Operand → Bool
  | nothing => true
  | path => !t.isEmpty
  | number => (number? t).isSome

namespace Flag

def name : Flag → String
  | config => "config"
  | verbose => "verbose"
  | help => "help"
  | version => "version"
  | schema => "schema"
  | json => "json"
  | output => "output"
  | line => "line"
  | column => "column"

def letter? : Flag → Option Char
  | config => some 'c'
  | verbose => some 'v'
  | help => some 'h'
  | version => some 'V'
  | schema => some 's'
  | output => some 'o'
  | line => some 'l'
  | json | column => none

def operand : Flag → Operand
  | config | schema | output => .path
  | line | column => .number
  | verbose | help | version | json => .nothing

/-- The flags that may stand before the command, or after its name. -/
def allowed : Option Verb → List Flag
  | none => [config, verbose, help, version]
  | some .validate => [config, verbose, help, schema, json, output]
  | some .locate | some .complete => [config, verbose, help, line, column]
  | some .statements => [config, verbose, help]

end Flag

/-- What help can be asked for: the program, one of its commands, or help itself. -/
inductive Topic where
  | program
  | command (verb : Verb)
  | help
deriving Repr, DecidableEq

/-- What ends the reading of arguments before there is a request. -/
inductive Ending where
  | misuse
  | help (topic : Topic)
  | version
deriving Repr, DecidableEq

/-- What has been given before the command, or after its name. -/
structure Given where
  flags : List (Flag × Text) := []
  file : Option Text := none

namespace Given

/-- Take a flag with its operand; no flag is taken twice. -/
def withFlag (g : Given) (flag : Flag) (operand : Text) : Except Ending Given :=
  if (g.flags.lookup flag).isSome || !flag.operand.fits operand then .error .misuse
  else .ok { g with flags := (flag, operand) :: g.flags }

/-- Take a flag without an operand. -/
def withSwitch (g : Given) (verb : Option Verb) : Flag → Except Ending Given
  | .help => .error (.help (verb.elim .program .command))
  | .version => .error .version
  | flag => g.withFlag flag []

def withFile (g : Given) (file : Text) : Except Ending Given :=
  if g.file.isSome || file.isEmpty then .error .misuse else .ok { g with file := some file }

/-- Take flags by their letters. A flag with an operand takes the rest of them as it, with or
without an equals sign, or waits for the next argument. -/
def withLetters (g : Given) (verb : Option Verb) : Text → Except Ending (Given × Option Flag)
  | [] => .ok (g, none)
  | c :: rest =>
      match (Flag.allowed verb).find? fun flag => flag.letter? == some c with
      | none => .error .misuse
      | some flag =>
          if flag.operand = .nothing then
            (g.withSwitch verb flag).bind fun g => withLetters g verb rest
          else if rest.isEmpty then .ok (g, some flag)
          else
            (g.withFlag flag (if rest.head? == some '=' then rest.drop 1 else rest)).map (·, none)

/-- Take a flag by its long name, after which an equals sign and its operand may stand. -/
def withName (g : Given) (verb : Option Verb) (t : Text) : Except Ending (Given × Option Flag) :=
  let name := t.takeWhile (· != '=')
  let attached := (t.dropWhile (· != '=')).tail?
  match (Flag.allowed verb).find? fun flag => flag.name.toList == name, attached with
  | none, _ => .error .misuse
  | some flag, none =>
      if flag.operand = .nothing then (g.withSwitch verb flag).map (·, none)
      else .ok (g, some flag)
  | some flag, some operand =>
      if flag.operand = .nothing then .error .misuse
      else (g.withFlag flag operand).map (·, none)

end Given

/-- What an argument looks like: the sign that no flags follow, a flag by its long name, flags by
their letters, or anything else. -/
inductive Argument where
  | escape
  | named (t : Text)
  | lettered (t : Text)
  | plain (t : Text)

/-- What an argument looks like; a single hyphen is no flag. -/
def Argument.ofText : Text → Argument
  | ['-', '-'] => .escape
  | '-' :: '-' :: rest => .named rest
  | '-' :: c :: rest => .lettered (c :: rest)
  | t => .plain t

/-- What is asked for with the word help and what follows it. -/
def helpOn : List Text → Ending
  | [] => .help .program
  | [t] =>
      match Verb.ofName? t with
      | some verb => .help (.command verb)
      | none => if t == "help".toList then .help .help else .misuse
  | _ => .misuse

/-- Read arguments up to the name of the command, or after it to the end. `escaped` tells that no
more flags follow, and `waiting` is a flag whose operand comes next. -/
def readArguments (verb : Option Verb) (escaped : Bool) (waiting : Option Flag) (g : Given) :
    List Text → Except Ending (Given × Option (Verb × List Text))
  | [] => if waiting.isSome then .error .misuse else .ok (g, none)
  | a :: rest =>
      match waiting, if escaped then .plain a else Argument.ofText a with
      | some flag, .plain operand => do
          readArguments verb escaped none (← g.withFlag flag operand) rest
      | some _, _ => .error .misuse
      | none, .escape => readArguments verb true none g rest
      | none, .named t => do
          let (g, waiting) ← g.withName verb t
          readArguments verb escaped waiting g rest
      | none, .lettered t => do
          let (g, waiting) ← g.withLetters verb t
          readArguments verb escaped waiting g rest
      | none, .plain t =>
          if verb.isSome then do readArguments verb escaped none (← g.withFile t) rest
          else if escaped then .error .misuse
          else if t == "help".toList then .error (helpOn rest)
          else
            match Verb.ofName? t with
            | some found => .ok (g, some (found, rest))
            | none => .error .misuse

def Given.operand? (g : Given) (flag : Flag) : Option Text :=
  g.flags.lookup flag

def Given.has (g : Given) (flag : Flag) : Bool :=
  (g.operand? flag).isSome

/-- The cursor that has been given; its column is the first one unless it is named. -/
def Given.cursor? (g : Given) : Option Position := do
  let line ← (g.operand? .line).bind number?
  return ⟨line, ((g.operand? .column).bind number?).getD 1⟩

def ofGiven? (verb : Verb) (g : Given) : Option Command := do
  let file ← g.file
  match verb with
  | .validate => return .validate file (g.operand? .schema) (g.has .json) (g.operand? .output)
  | .locate => return .locate file (← g.cursor?)
  | .complete => return .complete file (← g.cursor?)
  | .statements => return .statements file

end SqlInsight.Command

namespace SqlInsight.Request

/-- The request that arguments make. A flag that goes with any command counts where it was given
last. -/
def ofArguments (arguments : List Text) : Except Command.Ending Request := do
  let (first, found) ← Command.readArguments none false none {} arguments
  match found with
  | none => throw .misuse
  | some (verb, rest) =>
      let (given, _) ← Command.readArguments (some verb) false none {} rest
      match Command.ofGiven? verb given with
      | none => throw .misuse
      | some command =>
          return ⟨(given.operand? .config).or (first.operand? .config),
            first.has .verbose || given.has .verbose, command⟩

end SqlInsight.Request
