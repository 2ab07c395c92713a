import ReactiveForm.Checker.Run

/-!
# The command line

Reads what a run needs from outside, runs it and writes what it gives back.
-/

open ReactiveForm

/-- The text of a file, if it can be read. -/
def readText? (file : String) : IO (Option String) := do
  try
    return some (← IO.FS.readFile file)
  catch _ =>
    return none

/-- The environment of this process. -/
def readEnvironment : IO Environment := do
  let text := (← readText? "/proc/self/environ").getD ""
  return ⟨Text.cut '\x00' text⟩

/-- The text of the standard input, if it is well formed. -/
def readInput? : IO (Option String) := do
  return String.fromUTF8? (← (← IO.getStdin).readBinToEnd)

/-- The lines of the log. -/
def logText (events : List Checker.LogEvent) : String :=
  events.foldl
    (fun text event =>
      text ++ " INFO " ++ event.message ++
        event.numbers.foldl (fun line n => line ++ " " ++ n.1 ++ "=" ++ toString n.2) "" ++ "\n")
    ""

/-- How many bytes one place of a stream takes. -/
def slotSize : Nat := 56

/-- Run the command line with the arguments of this process. -/
def main (arguments : List String) : IO UInt32 := do
  let environment ← readEnvironment
  let mut files : List (String × String) := []
  let mut input : Option String := none
  match Checker.Request.ofArguments arguments (environment.get? Checker.envFileVariable) with
  | .check options =>
    for file in (options.envFile.getD Checker.dotFile) :: options.data.toList do
      match ← readText? file with
      | some text => files := files ++ [(file, text)]
      | none => pure ()
    if options.data.isNone then
      input ← readInput?
  | _ => pure ()
  let result := Checker.run
    ⟨environment, fun file => files.lookup file, input, logText, slotSize⟩ arguments
  IO.print result.output
  IO.eprint result.errors
  return result.exitCode.toUInt32
