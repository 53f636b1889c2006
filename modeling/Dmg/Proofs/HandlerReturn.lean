import Dmg.Proofs.ClockFrame
import Dmg.Proofs.PushedWord

namespace Dmg

/-!
# A handler that returns at once

The dispatch of an interrupt pushes the program counter and goes to the handler.  If that
is a return which asks for interrupts to be enabled, the next step pops what was pushed.
The interrupted program then finds its registers and its memory as they were: only time
has passed, and the master enable is set one step later.
-/

namespace Action

variable
  {start : Execution}
  {failed : Fault → Execution → Prop}

/-- The instruction of an opcode that is found is executed behind the opcode. -/
theorem ensures_executeNext
    {returned : Nat → Execution → Prop}
    {opcode : UInt8}
    {instruction : Instruction}
    (found : start.bus.read start.cpu.pc = .ok opcode)
    (decoded : Instruction.ofOpcode? opcode = some instruction) :
    Ensures executeNext start returned failed ↔
      Ensures instruction.execute (start.beginning opcode)
        returned failed := by
  unfold executeNext fetchByte
  simp only [ensures_bind, ensures_cpu, ensures_record, ensures_access,
    Execution.noting_bus, found, jumpTo, ensures_modifyCpu, ensures_pure,
    decoded]
  rfl

/-- Two bytes that are found on the stack are popped as a word. -/
theorem ensures_popWord
    {returned : UInt16 → Execution → Prop}
    {low high : UInt8}
    (lowFound : start.bus.read start.cpu.sp = .ok low)
    (highFound : start.bus.read (start.cpu.sp + 1) = .ok high) :
    Ensures popWord start returned failed ↔
      returned (Word.ofBytes high low) start.popping.popping := by
  unfold popWord popByte readByte moveStack
  simp only [ensures_bind, ensures_cpu, ensures_record, ensures_access,
    ensures_modifyCpu, ensures_pure, Execution.noting_bus,
    Execution.noting_cpu, Execution.withCpu_bus, Execution.withCpu_cpu,
    lowFound, highFound]
  rfl

end Action

namespace Execution

/-- The execution after a return that asks for interrupts to be enabled. -/
def returning
    (execution : Execution)
    (address : UInt16) :
    Execution :=
  let popped := execution.popping.popping
  popped.withCpu ({ popped.cpu with pc := address }.requestIme true)

variable {execution : Execution}

theorem returning_cpu (address : UInt16) :
    (execution.returning address).cpu =
      { execution.cpu with
        pc := address
        sp := execution.cpu.sp + 2
        pendingIme := some ⟨true, 1⟩ } := by
  have twice : execution.cpu.sp + 1 + 1 = execution.cpu.sp + 2 := by
    grind
  rw [← twice]
  rfl

/-- A change that was just requested is pending once the cost has elapsed. -/
theorem elapsing_of_requested
    {enable : Bool}
    (requested : execution.cpu.pendingIme = some ⟨enable, 1⟩)
    (cost : Nat) :
    (execution.elapsing cost).cpu =
        { execution.cpu with
          cycles := execution.cpu.cycles + .ofNat cost
          pendingIme := some ⟨enable, 0⟩ } ∧
      (execution.elapsing cost).bus =
        { execution.bus with
          peripherals :=
            execution.bus.peripherals.advanceTo
              (execution.cpu.cycles + .ofNat cost) } := by
  let spent := execution.spending (.ofNat cost)
  have latched := @Cpu.latchIme_of_requested spent.cpu enable requested
  constructor
  · exact latched
  · change
      { execution.bus with
        peripherals :=
          execution.bus.peripherals.advanceTo spent.cpu.latchIme.cycles } = _
    rw [latched]
    rfl

/-- A processor that is awake and cannot be interrupted is left alone. -/
theorem serving_of_disabled
    (disabled : execution.cpu.ime = false)
    (awake : execution.cpu.halted = false) :
    execution.serving = execution := by
  have service := execution.service_serving
  generalize execution.serving = served at service
  cases service with
  | none => rfl
  | wake =>
      rw [← awake]
      rfl
  | dispatch enabled => cases enabled.symm.trans disabled

end Execution

namespace Machine

variable {machine : Machine}

/-- A processor that is awake executes the instruction that it finds. -/
theorem executeOrIdle_of_found
    {opcode : UInt8}
    {instruction : Instruction}
    {cost : Nat}
    {executed : Execution}
    (awake : machine.cpu.halted = false)
    (found : machine.bus.read machine.cpu.pc = .ok opcode)
    (decoded : Instruction.ofOpcode? opcode = some instruction)
    (executes :
      instruction.execute.run ((Execution.start machine).beginning opcode) =
        .ok cost executed) :
    machine.perform .executeOrIdle = .ok cost executed := by
  rw [executeOrIdle_of_awake awake]
  refine @Action.Ensures.run_eq _ _ .executeNext _ ?_
  apply (Action.ensures_executeNext found decoded).mpr
  unfold Action.Ensures
  rw [executes]

/-- What such a processor requests is what the instruction requests. -/
theorem imeRequest?_of_found
    {opcode : UInt8}
    (awake : machine.cpu.halted = false)
    (found : machine.bus.read machine.cpu.pc = .ok opcode) :
    machine.imeRequest? =
      (Instruction.ofOpcode? opcode).bind Instruction.imeRequest? := by
  have isByte : machine.bus.byteAt machine.cpu.pc = opcode := by
    simp [Bus.byteAt, found]
  simp [imeRequest?, awake, nextInstruction?, isByte]

/-- A return from a handler, to the word on top of the stack. -/
theorem executeOrIdle_of_return
    {low high : UInt8}
    (awake : machine.cpu.halted = false)
    (returns : machine.bus.read machine.cpu.pc = .ok 0xD9)
    (lowFound : machine.bus.read machine.cpu.sp = .ok low)
    (highFound : machine.bus.read (machine.cpu.sp + 1) = .ok high) :
    machine.perform .executeOrIdle =
      .ok 16
        (((Execution.start machine).beginning 0xD9).returning
          (Word.ofBytes high low)) := by
  let begun := (Execution.start machine).beginning 0xD9
  have lowBehind : begun.bus.read begun.cpu.sp = .ok low := lowFound
  have highBehind : begun.bus.read (begun.cpu.sp + 1) = .ok high :=
    highFound
  apply executeOrIdle_of_found awake returns rfl
  refine @Action.Ensures.run_eq _ _
    (Instruction.execute (.irregular .returnEnable)) _ ?_
  unfold Instruction.execute Irregular.execute Action.returnToCaller
    Action.jumpTo
  simp only [Action.ensures_bind, Action.ensures_modifyCpu,
    Action.ensures_pure]
  exact (Action.ensures_popWord lowBehind highBehind).mpr rfl

/-- A step ends with its cost if it serves no interrupt and asks for no transfer. -/
theorem step_of_unserved
    {cost : Nat}
    {executed elapsed : Execution}
    (executes : machine.perform .executeOrIdle = .ok cost executed)
    (elapses : executed.elapsing cost = elapsed)
    (unserved : elapsed.serving = elapsed)
    (noTransfer : elapsed.bus.peripherals.transferPage = 0) :
    machine.step =
      .ok (elapsed.cpu.cycles - machine.cpu.cycles) elapsed := by
  obtain ⟨complete, untransferred⟩ :=
    Execution.transfer_of_no_page noTransfer
  have served : (executed.elapsing cost).serving = elapsed := by
    rw [elapses, unserved]
  have stages :=
    Stages.of_complete executes (by rw [served]; exact complete)
  rw [served, untransferred] at stages
  exact stages.step_eq

/--
Where interrupts are disabled and no transfer is asked for, the step of such a return
takes its time and does nothing else.
-/
theorem step_of_return
    {low high : UInt8}
    (awake : machine.cpu.halted = false)
    (disabled : machine.cpu.ime = false)
    (noTransfer : machine.bus.peripherals.transferPage = 0)
    (returns : machine.bus.read machine.cpu.pc = .ok 0xD9)
    (lowFound : machine.bus.read machine.cpu.sp = .ok low)
    (highFound : machine.bus.read (machine.cpu.sp + 1) = .ok high) :
    ∃ final,
      machine.step = .ok 16 final ∧
        final.cpu =
          { machine.cpu with
            pc := Word.ofBytes high low
            sp := machine.cpu.sp + 2
            cycles := machine.cpu.cycles + 16
            pendingIme := some ⟨true, 0⟩ } ∧
        final.bus =
          { machine.bus with
            peripherals :=
              machine.bus.peripherals.advanceTo
                (machine.cpu.cycles + 16) } := by
  let begun := (Execution.start machine).beginning 0xD9
  have returned := begun.returning_cpu (Word.ofBytes high low)
  have requested := congrArg Cpu.pendingIme returned
  obtain ⟨latched, advanced⟩ := Execution.elapsing_of_requested requested 16
  rw [returned] at latched advanced
  have unserved :=
    Execution.serving_of_disabled
      ((congrArg Cpu.ime latched).trans disabled)
      ((congrArg Cpu.halted latched).trans awake)
  have noneAsked :=
    (congrArg (·.peripherals.transferPage) advanced).trans noTransfer
  have stepped :=
    step_of_unserved
      (executeOrIdle_of_return awake returns lowFound highFound)
      rfl unserved noneAsked
  have counted : machine.cpu.cycles + 16 - machine.cpu.cycles = 16 := by
    grind
  rw [latched] at stepped
  exact ⟨_, stepped.trans (congrArg (EStateM.Result.ok · _) counted),
    latched, advanced⟩

namespace Stages

variable
  {cost : Nat}
  {executed middle served final : Execution}
  (stages : machine.Stages cost executed middle served final)
include stages

/-- Interrupts are served if the master enable is set by then and a source is due. -/
theorem dispatches_iff_due :
    machine.Dispatches ↔ middle.cpu.ime = true ∧ middle.due ≠ 0 :=
  stages.dispatches_iff.trans stages.service.dispatched_iff

/-- A change that waits for one step is in effect when interrupts are served. -/
theorem middle_enable_of_pending
    {enable : Bool}
    (waiting : machine.cpu.pendingIme = some ⟨enable, 0⟩)
    (noRequest : machine.imeRequest? = none) :
    middle.cpu.ime = enable ∧ middle.cpu.pendingIme = none := by
  have settled : machine.Settled := by
    intro pending found
    cases found.symm.trans waiting
    rfl
  have latched := stages.middle_enable settled
  rw [noRequest, waiting] at latched
  exact ⟨latched.2, latched.1⟩

/-- Such a change sets the master enable unless the step ends with a dispatch. -/
theorem final_enable_of_pending
    {enable : Bool}
    (waiting : machine.cpu.pendingIme = some ⟨enable, 0⟩)
    (noRequest : machine.imeRequest? = none) :
    (final.cpu.ime = true ↔ enable = true ∧ ¬ machine.Dispatches) ∧
      final.cpu.pendingIme = none := by
  obtain ⟨latched, nonePending⟩ :=
    stages.middle_enable_of_pending waiting noRequest
  by_cases dispatches : machine.Dispatches
  · obtain ⟨disabled, dropped⟩ :=
      stages.final_enable_of_dispatches dispatches
    simp [disabled, dropped, dispatches]
  · obtain ⟨sameIme, samePending⟩ :=
      stages.final_enable_of_not_dispatches dispatches
    simp [sameIme, samePending, latched, nonePending, dispatches]

/-- A request of the step itself takes the place of the change that waits. -/
theorem final_enable_of_request
    {pending : PendingIme}
    {enable : Bool}
    (disabled : machine.cpu.ime = false)
    (waiting : machine.cpu.pendingIme = some pending)
    (noDelay : pending.delay = 0)
    (requests : machine.imeRequest? = some enable) :
    final.cpu.ime = false ∧ final.cpu.pendingIme = some ⟨enable, 0⟩ := by
  have settled : machine.Settled := by
    intro other found
    cases found.symm.trans waiting
    exact noDelay
  have latched := stages.middle_enable settled
  rw [requests, disabled] at latched
  have notDispatches : ¬ machine.Dispatches := by
    intro dispatches
    have enabled := (stages.dispatches_iff_due.mp dispatches).1
    cases latched.2.symm.trans enabled
  obtain ⟨sameIme, samePending⟩ :=
    stages.final_enable_of_not_dispatches notDispatches
  exact ⟨sameIme.trans latched.2, samePending.trans latched.1⟩

end Stages

end Machine

namespace Interrupt

/-- The handlers start in the ROM. -/
theorem vectorAt_insideRom (number : Fin 5) :
    (vectorAt number).toNat < 0x8000 := by
  revert number
  decide

end Interrupt

namespace Execution.Dispatched

variable
  {number : Fin 5}
  {before after : Execution}
  (dispatched : Dispatched number before after)
  (highInRam : InRam (before.cpu.sp - 1))
  (lowInRam : InRam (before.cpu.sp - 2))
include dispatched highInRam lowInRam

/-- A dispatch changes two bytes of RAM and withdraws the request. -/
theorem bus_eq :
    after.bus =
      { before.bus.pushed before.cpu.sp before.cpu.pc with
        peripherals :=
          { before.bus.peripherals with
            requests :=
              before.bus.peripherals.requests &&&
                ~~~Interrupt.bitAt number } } :=
  dispatched.bus.trans
    (Bus.pushed_withPeripherals highInRam lowInRam _ _ _)

/-- What is found outside the register page is what has been pushed, or is as before. -/
theorem read_eq
    {address : UInt16}
    (outsidePage : address.toNat < 0xFF00 ∨ 0xFF4C ≤ address.toNat) :
    after.bus.read address =
      (before.bus.pushed before.cpu.sp before.cpu.pc).read address := by
  rw [dispatched.bus_eq highInRam lowInRam]
  apply Bus.read_withPeripherals
  rcases outsidePage with below | above
  · exact .inl below
  · exact .inr (.inl above)

/-- The interrupted address lies on top of the handler's stack. -/
theorem stacked :
    after.bus.read (before.cpu.sp - 2) = .ok (Word.low before.cpu.pc) ∧
      after.bus.read (before.cpu.sp - 1) =
        .ok (Word.high before.cpu.pc) := by
  rw [dispatched.read_eq highInRam lowInRam lowInRam.outsidePage,
    dispatched.read_eq highInRam lowInRam highInRam.outsidePage]
  exact
    ⟨Bus.read_pushed_low lowInRam _ _,
      Bus.read_pushed_high highInRam lowInRam _ _⟩

/-- The code of the handler is as before the dispatch. -/
theorem read_vector :
    after.bus.read (Interrupt.vectorAt number) =
      before.bus.read (Interrupt.vectorAt number) := by
  have insideRom := Interrupt.vectorAt_insideRom number
  have belowPage : (Interrupt.vectorAt number).toNat < 0xFF00 :=
    Nat.lt_trans insideRom (by simp)
  exact
    (dispatched.read_eq highInRam lowInRam (.inl belowPage)).trans
      (Bus.read_pushed_rom highInRam lowInRam _ _ insideRom)

/--
A handler that returns at once leaves the registers as they were before the dispatch, and
a request to enable.  It may run over a bus that has changed since the dispatch, as long
as the stack has not.
-/
theorem step_returns
    {handler : Machine}
    (sameCpu : handler.cpu = after.cpu)
    (sameStack :
      ∀ address, InRam address →
        handler.bus.read address = after.bus.read address)
    (noTransfer : handler.bus.peripherals.transferPage = 0)
    (returns : handler.bus.read handler.cpu.pc = .ok 0xD9) :
    ∃ final,
      handler.step = .ok 16 final ∧
        final.cpu =
          { before.cpu with
            cycles := before.cpu.cycles + 36
            ime := false
            halted := false
            pendingIme := some ⟨true, 0⟩ } ∧
        final.bus =
          { handler.bus with
            peripherals :=
              handler.bus.peripherals.advanceTo
                (before.cpu.cycles + 36) } := by
  have back : before.cpu.sp - 2 + 2 = before.cpu.sp := by
    grind
  have above : before.cpu.sp - 2 + 1 = before.cpu.sp - 1 := by
    grind
  have elapsed :
      before.cpu.cycles + 20 + 16 = before.cpu.cycles + 36 := by
    grind
  have handlerCpu := sameCpu.trans dispatched.cpu
  obtain ⟨lowFound, highFound⟩ := dispatched.stacked highInRam lowInRam
  rw [← sameStack _ lowInRam] at lowFound
  rw [← sameStack _ highInRam] at highFound
  obtain ⟨final, stepped, finalCpu, finalBus⟩ :=
    Machine.step_of_return
      (congrArg Cpu.halted handlerCpu) (congrArg Cpu.ime handlerCpu)
      noTransfer returns
      (by rw [handlerCpu]; exact lowFound)
      (by rw [handlerCpu, above]; exact highFound)
  rw [handlerCpu, Word.ofBytes_high_low] at finalCpu
  rw [handlerCpu] at finalBus
  dsimp only at finalCpu finalBus
  rw [back, elapsed] at finalCpu
  rw [elapsed] at finalBus
  exact ⟨final, stepped, finalCpu, finalBus⟩

end Execution.Dispatched

/-- A push and the clock are seen in two bytes and in what the clock moves. -/
theorem Bus.read_pushed_advanceTo
    {pointer address : UInt16}
    (highInRam : InRam (pointer - 1))
    (lowInRam : InRam (pointer - 2))
    (notHigh : canonical address ≠ pointer - 1)
    (notLow : canonical address ≠ pointer - 2)
    (unclocked : address ∉ Peripherals.clockedAddresses)
    (bus : Bus)
    (word : UInt16)
    (requests : UInt8)
    (cycles : UInt64) :
    read
        { bus.pushed pointer word with
          peripherals :=
            { bus.peripherals with requests := requests }.advanceTo
              cycles }
        address =
      bus.read address := by
  have notRequests : address ≠ 0xFF0F := by
    rintro rfl
    exact absurd (by simp [Peripherals.clockedAddresses]) unclocked
  have sameRegister :
      ({ bus.peripherals with requests := requests }.advanceTo
          cycles).read address =
        (bus.pushed pointer word).peripherals.read address := by
    rw [pushed_peripherals highInRam lowInRam,
      Peripherals.read_advanceTo_other unclocked,
      Peripherals.read_withRequests notRequests]
  exact
    (read_withPeripherals (.inr (.inr sameRegister))).trans
      (read_pushed_other highInRam lowInRam bus word notHigh notLow)

namespace Machine

variable {machine : Machine}

/-- An interrupt that is accepted is dispatched. -/
theorem dispatched_of_accepted
    {source : Interrupt}
    {dispatched : Execution}
    (accepted :
      machine.perform (.interrupt source) = .ok true dispatched) :
    Execution.Dispatched source.index (.start machine) dispatched := by
  have offered :
      Action.Ensures (.interrupt source) (.start machine)
        (fun result final =>
          result = true →
            final = (Execution.start machine).dispatching source)
        (fun _ _ => True) := by
    rw [Action.ensures_interrupt]
    intro accepts
    exact if_pos accepts
  rw [offered.of_ok accepted rfl]
  exact Execution.dispatched_dispatching _ source

/--
An interrupt whose handler returns at once is transparent to the interrupted program.  If
the program counter is pushed to RAM and no transfer is asked for, the dispatch and one
step take 36 cycles and give back every register.  Of the memory only the two bytes below
the stack pointer have changed, and on the register page only what the clock moves; the
request is withdrawn, and the clock may add those of the vertical blank and the timer.
The master enable is clear and waits for the following step: it is set when that step
serves interrupts, and stays so if no source is due, unless the step makes a request of
its own.
-/
theorem interrupt_is_transparent
    {source : Interrupt}
    {dispatched : Execution}
    (highInRam : InRam (machine.cpu.sp - 1))
    (lowInRam : InRam (machine.cpu.sp - 2))
    (noTransfer : machine.bus.peripherals.transferPage = 0)
    (accepted :
      machine.perform (.interrupt source) = .ok true dispatched)
    (returns : machine.bus.read source.vector = .ok 0xD9) :
    ∃ final,
      dispatched.toMachine.step = .ok 16 final ∧
        final.cpu =
          { machine.cpu with
            cycles := machine.cpu.cycles + 36
            ime := false
            halted := false
            pendingIme := some ⟨true, 0⟩ } ∧
        final.bus =
          { machine.bus.pushed machine.cpu.sp machine.cpu.pc with
            peripherals :=
              { machine.bus.peripherals with
                requests :=
                  source.acknowledge
                    machine.bus.peripherals.requests }.advanceTo
                (machine.cpu.cycles + 36) } ∧
        (∀ address,
          Bus.canonical address ≠ machine.cpu.sp - 1 →
            Bus.canonical address ≠ machine.cpu.sp - 2 →
            address ∉ Peripherals.clockedAddresses →
            final.bus.read address = machine.bus.read address) ∧
        (∃ raised,
          raised &&& ~~~Interrupt.clockBits = 0 ∧
            final.bus.peripherals.requests =
              source.acknowledge machine.bus.peripherals.requests |||
                raised) ∧
        ∀ cost executed middle served next,
          final.toMachine.Stages cost executed middle served next →
            (final.toMachine.imeRequest? = none →
              middle.cpu.ime = true ∧
                (middle.due = 0 →
                  next.cpu.ime = true ∧ next.cpu.pendingIme = none)) ∧
              ∀ enable,
                final.toMachine.imeRequest? = some enable →
                  next.cpu.ime = false ∧
                    next.cpu.pendingIme = some ⟨enable, 0⟩ := by
  have pushes := dispatched_of_accepted accepted
  have noneAsked :=
    (pushes.transferPage highInRam lowInRam).trans noTransfer
  have handlerReturns : dispatched.bus.read dispatched.cpu.pc = .ok 0xD9 := by
    rw [← Interrupt.vectorAt_index] at returns
    rw [pushes.cpu]
    exact (pushes.read_vector highInRam lowInRam).trans returns
  obtain ⟨final, stepped, sameCpu, sameBus⟩ :=
    pushes.step_returns highInRam lowInRam rfl (fun _ _ => rfl) noneAsked
      handlerReturns
  rw [pushes.bus_eq highInRam lowInRam, Interrupt.bitAt_index] at sameBus
  have disabled : final.cpu.ime = false := congrArg Cpu.ime sameCpu
  have waiting : final.cpu.pendingIme = some ⟨true, 0⟩ :=
    congrArg Cpu.pendingIme sameCpu
  refine ⟨final, stepped, sameCpu, sameBus, ?_, ?_, ?_⟩
  · intro address notHigh notLow unclocked
    rw [sameBus]
    exact Bus.read_pushed_advanceTo highInRam lowInRam notHigh notLow
      unclocked _ _ _ _
  · rw [sameBus]
    exact
      ⟨_, Peripherals.raisedUntil_and _ _,
        Peripherals.advanceTo_requests _ _⟩
  · intro cost executed middle served next stages
    constructor
    · intro noRequest
      obtain ⟨enabled, -⟩ :=
        stages.middle_enable_of_pending waiting noRequest
      obtain ⟨setsEnable, nonePending⟩ :=
        stages.final_enable_of_pending waiting noRequest
      refine ⟨enabled, fun quiet => ⟨setsEnable.mpr ⟨rfl, ?_⟩, nonePending⟩⟩
      intro dispatches
      exact (stages.dispatches_iff_due.mp dispatches).2 quiet
    · intro enable requests
      exact stages.final_enable_of_request disabled waiting rfl requests

/-- A machine whose timer is due, over a ROM that is full of returns. -/
def amongReturns : Machine where
  cpu := { Cpu.powerOn with ime := true, a := 0x42 }
  bus :=
    { Bus.powerOn
        { Cartridge.blank with
          rom := Array.replicate (2 * Cartridge.romBankSize) 0xD9 } with
      interruptEnable := 0x04
      peripherals := { Peripherals.powerOn with requests := 0x04 } }

/-- After the interrupt of the timer the machine goes on where it was. -/
theorem interrupt_is_transparent_amongReturns :
    ∃ dispatched final,
      amongReturns.perform (.interrupt .timer) = .ok true dispatched ∧
        dispatched.cpu.pc = 0x50 ∧
        dispatched.toMachine.step = .ok 16 final ∧
        final.cpu.pc = 0x100 ∧
        final.cpu.sp = 0xFFFE ∧
        final.cpu.a = 0x42 ∧
        final.cpu.cycles = 36 ∧
        final.bus.read 0xFF80 = .ok 0 := by
  let dispatched := (Execution.start amongReturns).dispatching .timer
  have accepted :
      amongReturns.perform (.interrupt .timer) = .ok true dispatched :=
    rfl
  have returns : amongReturns.bus.read 0x50 = .ok 0xD9 := by
    have inside : 0x50 < 2 * Cartridge.romBankSize := by
      simp [Cartridge.romBankSize]
    have filled :
        (Array.replicate (2 * Cartridge.romBankSize) (0xD9 : UInt8)).getD
            0x50 0 =
          0xD9 := by
      simp [inside]
    exact congrArg Except.ok filled
  obtain ⟨final, stepped, sameCpu, -, untouched, -⟩ :=
    interrupt_is_transparent (by decide) (by decide) rfl accepted returns
  have elsewhere :=
    untouched 0xFF80 (by decide) (by decide) (by decide)
  refine ⟨dispatched, final, accepted, rfl, stepped, ?_⟩
  rw [sameCpu]
  exact ⟨rfl, rfl, rfl, rfl, elsewhere⟩

end Machine

end Dmg
