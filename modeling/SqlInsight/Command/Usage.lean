/-
How the command line is used, as it tells those who ask.
-/
import SqlInsight.Command.Arguments
import SqlInsight.Style

namespace SqlInsight.Command

def versionLine : Text :=
  "sqlsense 0.1.0".toList

def Verb.purpose : Verb → String
  | validate => "Validate a SQL file, against a schema snapshot when one is available"
  | locate => "Print the statement under a cursor"
  | complete => "Classify what would be completed at a cursor"
  | statements => "List every statement in a file"

def Flag.purpose : Flag → String
  | config => "Path to config file (default: sqlsense.toml)"
  | verbose => "Enable verbose output"
  | help => "Print help"
  | version => "Print version"
  | schema => "Schema snapshot JSON (default: lsp.schema_snapshot from the config)"
  | json => "Print the report as JSON instead of text"
  | output => "Also write the JSON report to this file"
  | line => "1-based cursor line"
  | column => "1-based cursor column [default: 1]"

def Flag.usage (flag : Flag) : StyledLine :=
  let letter : StyledLine :=
    match flag.letter? with
    | some c => [(some .bold, ['-', c]), (none, ", ".toList)]
    | none => .ofText (List.replicate 4 ' ')
  let operand : StyledLine :=
    if flag.operand = .nothing then []
    else .ofText (" <".toList ++ Text.asciiUpper flag.name.toList ++ ['>'])
  letter ++ (some .bold, "--".toList ++ flag.name.toList) :: operand

def columns (rows : List (StyledLine × Text)) : List StyledLine :=
  let width := (rows.map fun row => row.1.text.length).foldl max 0
  rows.map fun (left, right) =>
    let gap := List.replicate (width - left.text.length + 2) ' '
    (none, List.replicate 2 ' ') :: left ++ StyledLine.ofText (gap ++ right)

def Flag.listed : Option Verb → List Flag
  | none => [config, verbose, help, version]
  | some .validate => [config, schema, json, verbose, output, help]
  | some .locate | some .complete => [config, line, column, verbose, help]
  | some .statements => [config, verbose, help]

def plain (t : String) : StyledLine :=
  .ofText t.toList

def heading (title : String) : StyledLine :=
  [(some .heading, title.toList)]

def flagLines (verb : Option Verb) : List StyledLine :=
  heading "Options:"
    :: columns ((Flag.listed verb).map fun flag => (flag.usage, flag.purpose.toList))

/-- The line that tells how a command is typed: its words, and what follows them. -/
def usageLine (words : String) (rest : StyledLine) : StyledLine :=
  heading "Usage:" ++ [(none, [' ']), (some .bold, words.toList)] ++ rest

def helpPurpose : String :=
  "Print this message or the help of the given subcommand(s)"

/-- The lines that tell how the program or a part of it is used. -/
def usage : Topic → List StyledLine
  | .program =>
      let row (name purpose : String) : StyledLine × Text :=
        ([(some .bold, name.toList)], purpose.toList)
      let commands := Verb.all.map fun verb => row verb.name verb.purpose
      [plain "sqlsense - SQL text intelligence from the command line", [],
        usageLine "sqlsense" (plain " [OPTIONS] <COMMAND>"), [], heading "Commands:"]
        ++ columns (commands ++ [row "help" helpPurpose]) ++ [] :: flagLines none
  | .command verb =>
      let required : StyledLine :=
        if Flag.line ∈ Flag.allowed (some verb) then
          [(some .bold, "--line".toList), (none, " <LINE> ".toList)]
        else []
      let file := if verb = .validate then "SQL file to validate" else ""
      [plain verb.purpose, [],
        usageLine ("sqlsense " ++ verb.name)
          ((none, " [OPTIONS] ".toList) :: required ++ plain "<FILE>"),
        [], heading "Arguments:"]
        ++ columns [(plain "<FILE>", file.toList)] ++ [] :: flagLines (some verb)
  | .help =>
      [plain helpPurpose, [], usageLine "sqlsense help" (plain " [COMMAND]..."), [],
        heading "Arguments:"]
        ++ columns
          [(plain "[COMMAND]...", "Print help for the subcommand(s)".toList)]

end SqlInsight.Command
