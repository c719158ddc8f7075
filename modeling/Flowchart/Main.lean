import Flowchart.CommandLine

/-!
The program: its arguments, files and streams.
-/

open Flowchart CommandLine

/-- The files and streams of the process.  What is no text cannot be read. -/
def processSurroundings : Surroundings IO where
  fileText path := do
    try
      return some (← IO.FS.readFile path)
    catch _ =>
      return none
  inputText := do
    (← IO.getStdin).readToEnd
  storeText path text := do
    try
      IO.FS.writeFile path text
      return true
    catch _ =>
      return false

/-- Runs the program. -/
def main (arguments : List String) : IO UInt32 := do
  let outcome ← (Request.ofArguments arguments).carryOut processSurroundings
  (← IO.getStdout).putStr outcome.output
  match outcome.failure with
  | some failure => (← IO.getStderr).putStrLn ("error: " ++ failure.message)
  | none => pure ()
  return outcome.exitCode.toUInt32
