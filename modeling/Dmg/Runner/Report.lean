import Dmg.Cartridge.Load
import Dmg.Machine.Run
import Dmg.Runner.Options

namespace Dmg

/-!
# Runs from the command line

The command line may bound the steps and the cycles of a run.  Without either bound a
run lasts one frame; with a bound on steps alone, the cycles are not bounded.
-/

namespace Options

/-- Cycles in one frame of 154 lines. -/
def cyclesPerFrame : UInt64 :=
  456 * 154

/-- The cycle count at which a run ends. -/
def cycleBudget (options : Options) : UInt64 :=
  match options.cycles, options.steps with
  | some cycles, _ => cycles
  | none, some _ => greatestCount
  | none, none => cyclesPerFrame

/-- The number of steps after which a run ends. -/
def stepBudget (options : Options) : UInt64 :=
  options.steps.getD greatestCount

end Options

/-!
## Notices of a run

Beside what the machine tells of its steps, the log tells how a run starts and how it
ends.
-/

namespace Runner

/-- The notice of a run that starts. -/
def startNotice : Notice where
  detail := .info
  text := "Starting emulator"

/-- The notice of a run that has come to its end. -/
def ranNotice
    (steps : Nat)
    (cycles : UInt64) :
    Notice where
  detail := .info
  text :=
    "Ran " ++ toString steps ++ " instructions in " ++
      toString cycles.toNat ++ " cycles"

/-- The notice of a run that a fault has ended. -/
def stoppedNotice
    (steps : Nat)
    (fault : Fault) :
    Notice where
  detail := .error
  text :=
    "Emulation stopped after " ++ toString steps ++ " instructions: " ++
      fault.message

end Runner

/-!
## Reports

A run steps a fresh machine until a budget is used up or a fault stops it.  Its
report holds what is written and whether the run succeeded: the state of the
processor at the end, with a trace also the state after each step, and the notices
that a reader of the log sees.
-/

/-- What a run writes and whether it succeeded. -/
structure Report where
  succeeded : Bool
  /-- The lines of the standard output. -/
  output : List String
  /-- The notices of the log, which goes to the standard error output. -/
  notices : List Notice
  /-- The lines that follow the log there. -/
  errors : List String
  deriving Repr, DecidableEq

namespace Report

/-- The text of some lines, each with its line end. -/
def text (lines : List String) : String :=
  String.join (lines.map (· ++ "\n"))

/-- The exit status that tells whether the run succeeded. -/
def status (report : Report) : UInt32 :=
  if report.succeeded then 0 else 1

/-- The report of an image that could not be loaded. -/
def ofLoadFailure
    (asked : Detail)
    (reason : String) :
    Report where
  succeeded := false
  output := []
  notices := Notice.seenAt asked [Runner.startNotice]
  errors := ["Failed to load ROM: " ++ reason]

/-- The report of a file that could not be read. -/
def ofUnreadableFile
    (asked : Detail)
    (reason : String) :
    Report :=
  ofLoadFailure asked ("failed to read ROM image: " ++ reason)

end Report

namespace Runner

/-- What a run keeps of its steps. -/
structure Record where
  /-- The number of steps that were completed. -/
  steps : Nat
  /-- The lines of the trace, the latest first. -/
  trace : List String
  /-- The notices that the reader of the log sees, the latest first. -/
  notices : List Notice

namespace Record

/-- The record of a run before its first step. -/
def start
    (asked : Detail)
    (cartridge : Cartridge) :
    Record where
  steps := 0
  trace := []
  notices :=
    (Notice.seenAt asked [startNotice, cartridge.loadNotice]).reverse

/-- Add notices to a record, as far as the reader of the log sees them. -/
def addNotices
    (asked : Detail)
    (notices : List Notice)
    (record : Record) :
    Record :=
  { record with
    notices :=
      (Notice.seenAt asked notices).reverse ++ record.notices }

/-- Count a step, and add the state after it to the trace if one is wanted. -/
def addStep
    (wantTrace : Bool)
    (cpu : Cpu)
    (record : Record) :
    Record :=
  { record with
    steps := record.steps + 1
    trace :=
      if wantTrace then cpu.snapshot :: record.trace else record.trace }

end Record

/-- The observer of a run, which counts and traces a step only if it is completed. -/
def observer
    (asked : Detail)
    (wantTrace : Bool)
    (outcome : Outcome UInt64)
    (record : Record) :
    Record :=
  let logged := record.addNotices asked outcome.execution.notices
  match outcome with
  | .ok _ execution => logged.addStep wantTrace execution.cpu
  | .error _ _ => logged

/-- The machine that a run starts from. -/
def machineFor
    (options : Options)
    (cartridge : Cartridge) :
    Machine :=
  (Machine.powerOn cartridge).press options.input

/-- Run a cartridge as the options say, for a reader who asks for some detail. -/
def runCartridge
    (asked : Detail)
    (options : Options)
    (cartridge : Cartridge) :
    Report :=
  let run :=
    Machine.runWhile options.cycleBudget (observer asked options.trace)
      options.stepBudget.toNat (machineFor options cartridge)
      (.start asked cartridge)
  let final := run.machine.cpu
  let record := run.observed
  match run.fault with
  | none =>
      let notice := ranNotice record.steps final.cycles
      { succeeded := true
        output := record.trace.reverse ++ [final.snapshot]
        notices := (record.addNotices asked [notice]).notices.reverse
        errors := [] }
  | some fault =>
      let notice := stoppedNotice record.steps fault
      { succeeded := false
        output := record.trace.reverse
        notices := (record.addNotices asked [notice]).notices.reverse
        errors := [final.snapshot] }

/-- Load an image and run it, for a reader who asks for some detail. -/
def runAt
    (asked : Detail)
    (options : Options)
    (image : Image) :
    Report :=
  match Cartridge.load image with
  | .ok cartridge => runCartridge asked options cartridge
  | .error error => .ofLoadFailure asked error.message

/-- Load an image and run it; of the log only errors are seen. -/
def run
    (options : Options)
    (image : Image) :
    Report :=
  runAt .error options image

end Runner

end Dmg
