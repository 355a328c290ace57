import RecordFilter.Cli.Run

/-!
# The program

The command line around `Cli.report`: files are read, what is shown goes to the standard output, and
what went wrong to the standard error.
-/

namespace RecordFilter

/-- The text of a file, if it can be read. -/
def readText (path : String) : IO (Option String) := do
  try
    return some (← IO.FS.readFile path)
  catch _ =>
    return none

end RecordFilter

/-- Runs the program. -/
def main (args : List String) : IO UInt32 := do
  let report ← RecordFilter.Cli.report RecordFilter.readText args
  IO.print report.output
  match report with
  | .failed failure => IO.eprintln s!"Error: {failure.termText}"
  | .misused => IO.eprintln RecordFilter.Cli.usageText
  | .shown _ => pure ()
  return report.exitCode.toUInt32
