import Dmg.Runner.Report

namespace Dmg.Runner

/-!
# The command

Reads the command line and the ROM file, runs it, and writes the report.  Nothing is
decided here.
-/

/-- Write a report and give its exit status. -/
def writeReport (report : Report) : IO UInt32 := do
  IO.print (Report.text report.output)
  IO.eprint (Report.text (report.notices.map Notice.line ++ report.errors))
  return report.status

/-- Run the ROM file that the command line names. -/
def command (arguments : List String) : IO UInt32 := do
  match Options.ofArguments arguments with
  | .error error =>
      IO.eprintln ("error: " ++ error.message)
      return UsageError.status
  | .ok options =>
      match ← (IO.FS.readBinFile options.path).toBaseIO with
      | .ok bytes => writeReport (run options bytes.data)
      | .error problem =>
          writeReport (.ofUnreadableFile .error (toString problem))

end Dmg.Runner

/-- The entry point of the command. -/
def main (arguments : List String) : IO UInt32 :=
  Dmg.Runner.command arguments
