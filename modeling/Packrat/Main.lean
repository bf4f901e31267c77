import Packrat.CommandLine

/-!
# The program

Runs the command line.
-/

set_option autoImplicit false

/-- Writes what the command line leaves and returns its exit code. -/
def main (arguments : List String) : IO UInt32 := do
  let outputs := Packrat.CommandLine.run "packrat" arguments
  (← IO.getStdout).putStr outputs.stdout
  (← IO.getStderr).putStr outputs.stderr
  return outputs.code.toUInt32
