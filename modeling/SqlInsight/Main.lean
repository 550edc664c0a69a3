/-
The program: what its arguments ask for is carried out on the files of the machine.
-/
import SqlInsight.Command.Run
import SqlInsight.Reading.Standard
import Std.Time

namespace SqlInsight

def readFile? (path : Text) : IO (Option Text) := do
  try
    return some (← IO.FS.readFile (String.ofList path)).toList
  catch _ =>
    return none

def isThere (path : Text) : IO Bool := do
  try
    let _ ← IO.FS.realPath (String.ofList path)
    return !path.isEmpty
  catch _ =>
    return false

/-- Write a file, and tell whether that was possible. -/
def writeFile (path t : Text) : IO Bool := do
  try
    IO.FS.writeFile (String.ofList path) (String.ofList t)
    return true
  catch _ =>
    return false

/-- The time in universal time, down to nanoseconds. -/
def timeText : IO Text := do
  let now ← Std.Time.Timestamp.now
  let time := Std.Time.DateTime.ofTimestamp now Std.Time.TimeZone.ZoneRules.UTC
  return (time.toPlainDateTime.format "uuuu-MM-dd'T'HH:mm:ss.SSSSSSSSS'Z'").toList

def machine : IO (Command.Surroundings IO) := do
  let isTerminal ← (← IO.getStdout).isTty
  let isColored := Style.isShown (← IO.getEnv "CLICOLOR_FORCE") (← IO.getEnv "NO_COLOR")
    (← IO.getEnv "CLICOLOR") isTerminal
  return ⟨⟨readFile?, isThere⟩, writeFile, ← timeText, isColored⟩

end SqlInsight

def main (arguments : List String) : IO UInt32 := do
  let outcome ← SqlInsight.Command.run (← SqlInsight.machine) SqlInsight.standardParser
    SqlInsight.standardReaders (arguments.map String.toList)
  IO.eprint (String.ofList (SqlInsight.Text.terminated (outcome.notes ++ outcome.failure.toList)))
  IO.print (String.ofList (SqlInsight.Text.terminated outcome.output))
  return outcome.code.toUInt32
