import Dmg.Execution.Instruction

namespace Dmg

/-!
# One step of the machine

A step executes an instruction and then serves an interrupt that is due.  An interrupt
that is dispatched clears the master enable and its own request, pushes the program
counter and goes to the handler of its source.
-/

namespace Action

/-- The cycles that the dispatch of an interrupt takes. -/
def dispatchCost : UInt64 :=
  20

/-- The sources that are both requested and enabled. -/
def dueInterrupts : Action UInt8 := do
  let current ← bus
  return Interrupt.due current.peripherals.requests current.interruptEnable

/-- Go to the handler of an interrupt, whose request is withdrawn. -/
def dispatch (source : Interrupt) : Action Unit := do
  modifyCpu fun cpu =>
    { cpu with
      ime := false
      pendingIme := none
      halted := false }
  modifyBus fun bus =>
    { bus with
      peripherals :=
        { bus.peripherals with
          requests := source.acknowledge bus.peripherals.requests } }
  callTo source.vector
  spend dispatchCost

/--
Dispatch an interrupt if the master enable is set and the source is both requested
and enabled.  The result says whether it was dispatched.
-/
def interrupt (source : Interrupt) : Action Bool := do
  if (← cpu).ime && source.isIn (← dueInterrupts) then
    dispatch source
    return true
  else
    return false

/--
Serve the most urgent interrupt that is due.  Any that is due ends the halt, whether
or not the master enable lets it be dispatched.
-/
def serveInterrupts : Action Unit := do
  match Interrupt.mostUrgent? (← dueInterrupts) with
  | none => return
  | some source =>
      modifyCpu fun cpu => { cpu with halted := false }
      let _ ← interrupt source

end Action

/-!
## The parts of a step

A step executes one instruction, or idles while the processor is halted.  Then the
clock is advanced, a requested change of the interrupt master enable may take effect,
the peripherals catch up, at most one interrupt is dispatched, and a transfer that is
asked for is carried out.  A fault ends the step where it occurs.
-/

namespace Action

/-- The cycles that a halted processor idles in one step. -/
def idleCost : Nat :=
  4

/-- Let the peripherals catch up with the cycle count. -/
def advancePeripherals : Action Unit := do
  let cycles := (← cpu).cycles
  record (.catchUp cycles)
  modifyBus fun bus =>
    { bus with peripherals := bus.peripherals.advanceTo cycles }

/-- Carry out the transfer to object memory that is asked for. -/
def transfer : Action Unit := do
  let transferred := (← bus).transfer
  modifyBus fun _ => transferred.bus
  match transferred.fault with
  | none => return
  | some fault => throw fault

/-- Execute the next instruction, or idle while the processor is halted. -/
def executeOrIdle : Action Nat := do
  if (← cpu).halted then
    return idleCost
  else
    executeNext

/-- The part of a step before interrupts: execute, and let the clock follow. -/
def advance : Action Unit := do
  let cost ← executeOrIdle
  spend (.ofNat cost)
  modifyCpu (·.latchIme)
  advancePeripherals

/-- One step; the result is the number of cycles that it took. -/
def step : Action UInt64 := do
  let before := (← cpu).cycles
  advance
  serveInterrupts
  transfer
  return (← cpu).cycles - before

end Action

/-- What an action leaves: its result or a fault, and in either case the machine. -/
abbrev Outcome (α : Type) := EStateM.Result Fault Execution α

namespace Outcome

/-- The machine that an action leaves, with the record of the action. -/
def execution : Outcome α → Execution
  | .ok _ execution => execution
  | .error _ execution => execution

end Outcome

namespace Machine

/-- Carry out an action with nothing recorded before. -/
def perform
    (action : Action α)
    (machine : Machine) :
    Outcome α :=
  action.run (.start machine)

/-- One step of the machine; the result is the number of cycles that it took. -/
def step (machine : Machine) : Outcome UInt64 :=
  machine.perform .step

end Machine

end Dmg
