import Dmg.Machine.Step

namespace Dmg

/-!
# Runs

A run steps the machine while the cycle count is below a bound, up to a number of
steps, and ends early at a fault.  An observer is shown the outcome of every step, the
failing one included.  Since a step cannot be interrupted, a run may pass its bound by
the rest of its last step.
-/

/-- Where a run has brought a machine, and what was observed on the way. -/
structure Run (σ : Type) where
  machine : Machine
  /-- The fault that ended the run, if one did. -/
  fault : Option Fault
  observed : σ

namespace Run

/-- The cycles that have passed since the machine was in the given state. -/
def elapsedSince
    (start : Machine)
    (run : Run σ) :
    UInt64 :=
  run.machine.cpu.cycles - start.cpu.cycles

end Run

/-- The greatest cycle count. -/
def greatestCount : UInt64 :=
  UInt64.ofNat (UInt64.size - 1)

/-- The sum of two cycle counts, or the greatest count if the sum exceeds it. -/
def saturatingAdd (left right : UInt64) : UInt64 :=
  if left + right < left then
    greatestCount
  else
    left + right

namespace Machine

/-- Step at most so many times while the cycle count is below the bound. -/
def runWhile
    (bound : UInt64)
    (observe : Outcome UInt64 → σ → σ) :
    Nat →
    Machine →
    σ →
    Run σ
  | 0, machine, observed => ⟨machine, none, observed⟩
  | remaining + 1, machine, observed =>
      if machine.cpu.cycles < bound then
        match machine.step with
        | .ok cost execution =>
            runWhile bound observe remaining execution.toMachine
              (observe (.ok cost execution) observed)
        | .error fault execution =>
            ⟨execution.toMachine, some fault,
              observe (.error fault execution) observed⟩
      else
        ⟨machine, none, observed⟩

/-- Step so many times, unless a fault ends the run before. -/
def stepTimes
    (observe : Outcome UInt64 → σ → σ)
    (steps : Nat)
    (machine : Machine)
    (observed : σ) :
    Run σ :=
  runWhile greatestCount observe steps machine observed

/--
Run until at least so many more cycles have passed.  As every step takes time, the
cycles asked for also bound the number of steps.
-/
def runFor
    (observe : Outcome UInt64 → σ → σ)
    (cycles : UInt64)
    (machine : Machine)
    (observed : σ) :
    Run σ :=
  let target := saturatingAdd machine.cpu.cycles cycles
  runWhile target observe (target - machine.cpu.cycles).toNat machine observed

end Machine

end Dmg
