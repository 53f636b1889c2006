import Dmg.Proofs.Moves

namespace Dmg

/-!
# The parts of a step

Only the execution of an instruction and the transfer can fail.  What the other parts of
a step make of an execution is therefore a function of it, and so is what the transfer
leaves, whether or not it is cut short.  Nothing that is proved about a step has to
follow the actions of these parts again.
-/

namespace Execution

/-- The execution after a byte has been pushed. -/
def pushing
    (execution : Execution)
    (value : UInt8) :
    Execution :=
  (execution.withCpu
      { execution.cpu with sp := execution.cpu.sp - 1 }).storing
    (execution.cpu.sp - 1) value

/-- The execution after a call: the program counter is pushed, its high byte first. -/
def calling
    (execution : Execution)
    (address : UInt16) :
    Execution :=
  let pushed :=
    (execution.pushing (Word.high execution.cpu.pc)).pushing
      (Word.low execution.cpu.pc)
  pushed.withCpu { pushed.cpu with pc := address }

def spending
    (execution : Execution)
    (cycles : UInt64) :
    Execution :=
  execution.withCpu
    { execution.cpu with cycles := execution.cpu.cycles + cycles }

/-- The execution after the peripherals have caught up with the cycle count. -/
def catchingUp (execution : Execution) : Execution :=
  (execution.noting (.catchUp execution.cpu.cycles)).withBus
    { execution.bus with
      peripherals :=
        execution.bus.peripherals.advanceTo execution.cpu.cycles }

/-- The execution after the cost of an instruction has elapsed. -/
def elapsing
    (execution : Execution)
    (cost : Nat) :
    Execution :=
  let spent := execution.spending (.ofNat cost)
  (spent.withCpu spent.cpu.latchIme).catchingUp

/-- The execution after an interrupt has been accepted and its request withdrawn. -/
def acknowledging
    (execution : Execution)
    (source : Interrupt) :
    Execution :=
  (execution.withCpu
      { execution.cpu with
        ime := false
        pendingIme := none
        halted := false }).withBus
    { execution.bus with
      peripherals :=
        { execution.bus.peripherals with
          requests :=
            source.acknowledge execution.bus.peripherals.requests } }

def dispatching
    (execution : Execution)
    (source : Interrupt) :
    Execution :=
  ((execution.acknowledging source).calling source.vector).spending
    Action.dispatchCost

/-- The sources that are both requested and enabled. -/
def due (execution : Execution) : UInt8 :=
  Interrupt.due
    execution.bus.peripherals.requests
    execution.bus.interruptEnable

/-- An interrupt would be dispatched: the master enable is set and the source is due. -/
def accepts
    (execution : Execution)
    (source : Interrupt) :
    Bool :=
  execution.cpu.ime && source.isIn execution.due

def offering
    (execution : Execution)
    (source : Interrupt) :
    Execution :=
  if execution.accepts source then
    execution.dispatching source
  else
    execution

/-- The execution after interrupts have been served. -/
def serving (execution : Execution) : Execution :=
  match Interrupt.mostUrgent? execution.due with
  | none => execution
  | some source =>
      (execution.withCpu
        { execution.cpu with halted := false }).offering source

/-- The execution after a transfer, complete or cut short. -/
def transferring (execution : Execution) : Execution :=
  execution.withBus execution.bus.transfer.bus

/-- The execution after the part of a step that follows the catching up. -/
def settling (execution : Execution) : Execution :=
  execution.serving.transferring

/-- The fault that cuts that part short, if one does. -/
def settlingFault? (execution : Execution) : Option Fault :=
  execution.serving.bus.transfer.fault

theorem moves_pushing
    (execution : Execution)
    (value : UInt8) :
    Moves execution (execution.pushing value) := by
  have moved :
      Move execution
        (execution.withCpu
          { execution.cpu with sp := execution.cpu.sp - 1 }) :=
    .registers _ _ rfl rfl
  exact .tail (.single moved) (.store _ _ value)

theorem moves_calling
    (execution : Execution)
    (address : UInt16) :
    Moves execution (execution.calling address) := by
  have pushed :=
    (execution.moves_pushing (Word.high execution.cpu.pc)).trans
      (moves_pushing _ (Word.low execution.cpu.pc))
  exact pushed.tail (.registers _ _ rfl rfl)

end Execution

namespace Action

variable
  {start : Execution}
  {failed : Fault → Execution → Prop}

@[simp] theorem ensures_callTo
    {returned : Unit → Execution → Prop}
    (address : UInt16) :
    Ensures (callTo address) start returned failed ↔
      returned () (start.calling address) :=
  Iff.rfl

@[simp] theorem ensures_dispatch
    {returned : Unit → Execution → Prop}
    (source : Interrupt) :
    Ensures (dispatch source) start returned failed ↔
      returned () (start.dispatching source) :=
  Iff.rfl

@[simp] theorem ensures_dueInterrupts
    {returned : UInt8 → Execution → Prop} :
    Ensures dueInterrupts start returned failed ↔
      returned start.due start :=
  Iff.rfl

@[simp] theorem ensures_interrupt
    {returned : Bool → Execution → Prop}
    (source : Interrupt) :
    Ensures (interrupt source) start returned failed ↔
      returned (start.accepts source) (start.offering source) := by
  unfold interrupt Execution.offering
  simp only [ensures_bind, ensures_cpu, ensures_dueInterrupts,
    ensures_ite, ensures_dispatch, ensures_pure]
  cases accepted : start.accepts source with
  | true =>
      unfold Execution.accepts at accepted
      rw [if_pos accepted, if_pos rfl]
  | false =>
      unfold Execution.accepts at accepted
      rw [accepted, if_neg Bool.false_ne_true, if_neg Bool.false_ne_true]

@[simp] theorem ensures_serveInterrupts
    {returned : Unit → Execution → Prop} :
    Ensures serveInterrupts start returned failed ↔
      returned () start.serving := by
  unfold serveInterrupts Execution.serving
  rw [ensures_bind, ensures_dueInterrupts]
  cases Interrupt.mostUrgent? start.due with
  | none => rfl
  | some source =>
      simp only [ensures_bind, ensures_modifyCpu, ensures_interrupt,
        ensures_pure]

@[simp] theorem ensures_spend
    {returned : Unit → Execution → Prop}
    (cycles : UInt64) :
    Ensures (spend cycles) start returned failed ↔
      returned () (start.spending cycles) :=
  Iff.rfl

@[simp] theorem ensures_advancePeripherals
    {returned : Unit → Execution → Prop} :
    Ensures advancePeripherals start returned failed ↔
      returned () start.catchingUp :=
  Iff.rfl

@[simp] theorem ensures_advance
    {returned : Unit → Execution → Prop} :
    Ensures advance start returned failed ↔
      Ensures executeOrIdle start
        (fun cost middle => returned () (middle.elapsing cost))
        failed := by
  unfold advance Execution.elapsing
  simp only [ensures_bind, ensures_spend, ensures_modifyCpu,
    ensures_advancePeripherals]

@[simp] theorem ensures_transfer
    {returned : Unit → Execution → Prop} :
    Ensures transfer start returned failed ↔
      match start.bus.transfer.fault with
      | none => returned () start.transferring
      | some fault => failed fault start.transferring := by
  unfold transfer
  rw [ensures_bind, ensures_bus, ensures_bind, ensures_modifyBus]
  cases start.bus.transfer.fault <;> rfl

/-- A step executes an instruction; what follows is a function of what that leaves. -/
theorem ensures_step
    {returned : UInt64 → Execution → Prop} :
    Ensures step start returned failed ↔
      Ensures executeOrIdle start
        (fun cost middle =>
          let final := (middle.elapsing cost).settling
          match (middle.elapsing cost).settlingFault? with
          | none => returned (final.cpu.cycles - start.cpu.cycles) final
          | some fault => failed fault final)
        failed := by
  unfold step
  simp only [ensures_bind, ensures_cpu, ensures_advance,
    ensures_serveInterrupts, ensures_transfer, ensures_pure]
  rfl

end Action

namespace Machine

/-- What is left when an interrupt is offered from outside. -/
theorem execution_interrupt
    (machine : Machine)
    (source : Interrupt) :
    (machine.perform (.interrupt source)).execution =
      (Execution.start machine).offering source := by
  have offered :
      Action.Ensures (.interrupt source) (.start machine)
        (fun _ final => final = (Execution.start machine).offering source)
        (fun _ final => final = (Execution.start machine).offering source) :=
    (Action.ensures_interrupt source).mpr rfl
  exact offered.execution

/-- What is left when a transfer is carried out from outside. -/
theorem execution_transfer (machine : Machine) :
    (machine.perform .transfer).execution =
      (Execution.start machine).transferring := by
  have transferred :
      Action.Ensures .transfer (.start machine)
        (fun _ final => final = (Execution.start machine).transferring)
        (fun _ final => final = (Execution.start machine).transferring) := by
    rw [Action.ensures_transfer]
    split
    · rfl
    · rfl
  exact transferred.execution

end Machine

end Dmg
