import Calculator.CommandLine

/-!
# The program

Reads the arguments, and the script if they name one, and writes the report.
-/

set_option autoImplicit false

open Calculator

/-- The contents of a file, if it can be read as text. -/
def readScript? (name : String) : IO (Option String) := do
  try
    return some (← IO.FS.readFile name)
  catch _ =>
    return none

/-- Runs the program on its arguments and returns the exit code. -/
def main (arguments : List String) : IO UInt32 := do
  match CommandLine.parse arguments with
  | .error stop =>
    IO.eprintln "Usage: calculator [-m MODE] [-b BASE] [-f] CONTENTS..."
    return UInt32.ofNat stop.exitCode
  | .ok invocation =>
    let script? ← match invocation.script? with
      | some name => readScript? name
      | none => pure none
    let report := invocation.run script?
    IO.print report.output
    IO.eprint report.errors
    return UInt32.ofNat report.ending.exitCode
