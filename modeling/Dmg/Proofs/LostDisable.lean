import Dmg.Proofs.HandlerReturn
import Dmg.Proofs.TransferCopy

namespace Dmg

/-!
# A request to disable that is lost

A request to disable interrupts waits for one step.  If an interrupt is dispatched at the
end of the step that made the request, the dispatch drops it, and the return from the
handler asks for interrupts to be enabled: the interrupted program goes on with the
master enable set, as if it had asked for that.
-/

namespace Machine

variable
  {machine : Machine}
  {cost : Nat}
  {executed middle served final : Execution}

/-- A request to disable interrupts does nothing else. -/
theorem executeOrIdle_of_disable
    (awake : machine.cpu.halted = false)
    (disables : machine.bus.read machine.cpu.pc = .ok 0xF3) :
    let begun := (Execution.start machine).beginning 0xF3
    machine.perform .executeOrIdle =
      .ok 4 (begun.withCpu (begun.cpu.requestIme false)) :=
  executeOrIdle_of_found awake disables rfl rfl

/-- When interrupts are served, the request to disable them waits for the next step. -/
theorem Stages.middle_of_disable
    (stages : machine.Stages cost executed middle served final)
    (awake : machine.cpu.halted = false)
    (disables : machine.bus.read machine.cpu.pc = .ok 0xF3) :
    middle.cpu =
        { machine.cpu with
          pc := machine.cpu.pc + 1
          cycles := machine.cpu.cycles + 4
          pendingIme := some ⟨false, 0⟩ } ∧
      middle.bus =
        { machine.bus with
          peripherals :=
            machine.bus.peripherals.advanceTo
              (machine.cpu.cycles + 4) } := by
  have executes := executeOrIdle_of_disable awake disables
  have isMiddle := stages.middle_eq
  cases stages.executes.symm.trans executes
  rw [isMiddle]
  exact Execution.elapsing_of_requested rfl 4

/-- A change that waits for one step is what the step makes of the master enable. -/
theorem step_enable_of_pending
    {enable : Bool}
    {cycles : UInt64}
    (waiting : machine.cpu.pendingIme = some ⟨enable, 0⟩)
    (noRequest : machine.imeRequest? = none)
    (stepped : machine.step = .ok cycles final) :
    (final.cpu.ime = true ↔ enable = true ∧ ¬ machine.Dispatches) ∧
      final.cpu.pendingIme = none := by
  obtain ⟨_, _, _, _, stages⟩ := step_ok_iff.mp ⟨cycles, stepped⟩
  exact stages.final_enable_of_pending waiting noRequest

/--
A request to disable interrupts takes effect with the following instruction, unless an
interrupt is dispatched in the step that made it.  In that case the request is dropped,
and a handler that returns at once leaves the machine as if the program had requested the
opposite: registers and stack are those of the interrupted program, and the following
instruction ends with the master enable set, unless it is interrupted itself.
-/
theorem disable_is_lost_to_dispatch
    {cycles : UInt64}
    (awake : machine.cpu.halted = false)
    (highInRam : InRam (machine.cpu.sp - 1))
    (lowInRam : InRam (machine.cpu.sp - 2))
    (disables : machine.bus.read machine.cpu.pc = .ok 0xF3)
    (stepped : machine.step = .ok cycles final) :
    (¬ machine.Dispatches →
        final.cpu.pc = machine.cpu.pc + 1 ∧
          ∀ cycles next,
            final.toMachine.imeRequest? = none →
              final.toMachine.step = .ok cycles next →
              next.cpu.ime = false ∧ next.cpu.pendingIme = none) ∧
      (machine.Dispatches →
        final.bus.read final.cpu.pc = .ok 0xD9 →
        ∃ back,
          final.toMachine.step = .ok 16 back ∧
            back.cpu =
              { machine.cpu with
                pc := machine.cpu.pc + 1
                cycles := machine.cpu.cycles + 40
                ime := false
                halted := false
                pendingIme := some ⟨true, 0⟩ } ∧
            ∀ cycles next,
              back.toMachine.imeRequest? = none →
                back.toMachine.step = .ok cycles next →
                (next.cpu.ime = true ↔ ¬ back.toMachine.Dispatches) ∧
                  next.cpu.pendingIme = none) := by
  obtain ⟨cost, executed, middle, served, stages⟩ :=
    step_ok_iff.mp ⟨cycles, stepped⟩
  obtain ⟨middleCpu, -⟩ := stages.middle_of_disable awake disables
  constructor
  · intro notDispatches
    have notDispatched := mt stages.dispatches_iff.mpr notDispatches
    have unserved := stages.service.eq_of_not_dispatched notDispatched
    have finalCpu := stages.final_cpu
    rw [unserved, Execution.withCpu_cpu, middleCpu] at finalCpu
    have waiting : final.cpu.pendingIme = some ⟨false, 0⟩ :=
      congrArg Cpu.pendingIme finalCpu
    refine ⟨congrArg Cpu.pc finalCpu, ?_⟩
    intro cycles next noRequest followed
    simpa using step_enable_of_pending waiting noRequest followed
  · intro dispatches returns
    obtain ⟨number, dispatched⟩ := stages.dispatches_iff.mp dispatches
    have sameStack : machine.cpu.sp = middle.cpu.sp := by
      rw [middleCpu]
    rw [sameStack] at highInRam lowInRam
    -- The transfer that ends the step does not reach the stack.
    have finalBus : final.bus = served.bus.transfer.bus :=
      congrArg (·.bus) stages.final_eq
    have sameInRam (address : UInt16) (inRam : InRam address) :
        final.bus.read address = served.bus.read address := by
      rw [finalBus]
      exact Bus.read_transfer inRam.outsideBetween served.bus
    have noTransfer : final.bus.peripherals.transferPage = 0 := by
      rw [finalBus]
      exact Bus.transferPage_of_complete stages.complete
    obtain ⟨back, returned, backCpu, -⟩ :=
      dispatched.step_returns highInRam lowInRam stages.final_cpu
        sameInRam noTransfer returns
    have elapsed :
        machine.cpu.cycles + 4 + 36 = machine.cpu.cycles + 40 := by
      grind
    rw [middleCpu] at backCpu
    dsimp only at backCpu
    rw [elapsed] at backCpu
    have waiting : back.cpu.pendingIme = some ⟨true, 0⟩ :=
      congrArg Cpu.pendingIme backCpu
    refine ⟨back, returned, backCpu, ?_⟩
    intro cycles next noRequest followed
    simpa using step_enable_of_pending waiting noRequest followed

/-- A request to disable interrupts succeeds if what may be pushed goes into RAM. -/
theorem stages_of_disable
    (awake : machine.cpu.halted = false)
    (disables : machine.bus.read machine.cpu.pc = .ok 0xF3)
    (highInRam : InRam (machine.cpu.sp - 1))
    (lowInRam : InRam (machine.cpu.sp - 2))
    (noTransfer : machine.bus.peripherals.transferPage = 0) :
    ∃ executed middle served,
      machine.Stages 4 executed middle served served := by
  let begun := (Execution.start machine).beginning 0xF3
  let executed := begun.withCpu (begun.cpu.requestIme false)
  have executes : machine.perform .executeOrIdle = .ok 4 executed :=
    executeOrIdle_of_disable awake disables
  obtain ⟨latched, advanced⟩ :=
    @Execution.elapsing_of_requested executed false rfl 4
  have sameStack : (executed.elapsing 4).cpu.sp = machine.cpu.sp := by
    rw [latched]
    rfl
  have samePage :
      (executed.elapsing 4).bus.peripherals.transferPage =
        machine.bus.peripherals.transferPage := by
    rw [advanced]
    rfl
  rw [← sameStack] at highInRam lowInRam
  have service := (executed.elapsing 4).service_serving
  obtain ⟨complete, untransferred⟩ :=
    Execution.transfer_of_no_page
      ((service.transferPage highInRam lowInRam).trans
        (samePage.trans noTransfer))
  have stages := Stages.of_complete executes complete
  rw [untransferred] at stages
  exact ⟨executed, _, _, stages⟩

end Machine

/-- Where no source of the clock is enabled, time makes no source due. -/
theorem Peripherals.due_advanceTo
    {enabled : UInt8}
    (unclocked : ~~~Interrupt.clockBits &&& enabled = enabled)
    (peripherals : Peripherals)
    (cycles : UInt64) :
    Interrupt.due (peripherals.advanceTo cycles).requests enabled =
      Interrupt.due peripherals.requests enabled := by
  have notRaised : peripherals.raisedUntil cycles &&& enabled = 0 := by
    rw [← unclocked, ← UInt8.and_assoc, raisedUntil_and, UInt8.zero_and]
  unfold Interrupt.due
  rw [advanceTo_requests, or_and_of_hidden notRaised]

namespace Machine

/-- An idle instruction lets a pending change take effect where no source is due. -/
theorem step_of_nop
    {machine : Machine}
    {enable : Bool}
    (awake : machine.cpu.halted = false)
    (found : machine.bus.read machine.cpu.pc = .ok 0x00)
    (waiting : machine.cpu.pendingIme = some ⟨enable, 0⟩)
    (unclocked :
      ~~~Interrupt.clockBits &&& machine.bus.interruptEnable =
        machine.bus.interruptEnable)
    (quiet :
      Interrupt.due machine.bus.peripherals.requests
        machine.bus.interruptEnable = 0)
    (noTransfer : machine.bus.peripherals.transferPage = 0) :
    ∃ next,
      machine.step = .ok 4 next ∧
        next.cpu.ime = enable ∧
        next.cpu.pendingIme = none := by
  let executed := (Execution.start machine).beginning 0x00
  have executes : machine.perform .executeOrIdle = .ok 4 executed :=
    executeOrIdle_of_found awake found rfl rfl
  have latched :=
    @Cpu.latchIme_of_due (executed.spending (.ofNat 4)).cpu enable waiting
  have elapsedCpu : (executed.elapsing 4).cpu = _ := latched
  have nothingDue : (executed.elapsing 4).due = 0 :=
    (Peripherals.due_advanceTo unclocked _ _).trans quiet
  have stepped :=
    step_of_unserved executes rfl
      (Execution.serving_of_quiet nothingDue) noTransfer
  have counted : machine.cpu.cycles + 4 - machine.cpu.cycles = 4 := by
    grind
  rw [elapsedCpu] at stepped
  refine ⟨_, stepped.trans (congrArg (EStateM.Result.ok · _) counted), ?_, ?_⟩
  · rw [elapsedCpu]
  · rw [elapsedCpu]

/-- A program that requests to disable interrupts, does nothing, and returns. -/
def disablingProgram (place : Nat) : UInt8 :=
  if place = 0x100 then
    0xF3
  else if place = 0x101 then
    0x00
  else
    0xD9

/-- That program on a machine that the joypad is due to interrupt. -/
def disablingAtRequest : Machine where
  cpu := { Cpu.powerOn with ime := true }
  bus :=
    { Bus.powerOn
        { Cartridge.blank with
          rom :=
            Array.ofFn fun place : Fin (2 * Cartridge.romBankSize) =>
              disablingProgram place.val } with
      interruptEnable := 0x10
      peripherals := { Peripherals.powerOn with requests := 0x10 } }

/-- The program is read as it is written. -/
theorem read_disablingAtRequest
    {address : UInt16}
    (inside : address.toNat < 0x4000) :
    disablingAtRequest.bus.read address =
      .ok (disablingProgram address.toNat) := by
  have found :
      disablingAtRequest.bus.cartridge.rom.getD (0 + address.toNat) 0 =
        disablingProgram address.toNat := by
    have inRom : address.toNat < 2 * Cartridge.romBankSize :=
      Nat.lt_trans inside (by simp [Cartridge.romBankSize])
    simp [disablingAtRequest, Bus.powerOn, inRom]
  unfold Bus.read Location.ofAddress
  simp only [inside, ↓reduceDIte]
  exact congrArg Except.ok found

/-- The first step requests to disable interrupts and dispatches that of the joypad. -/
theorem dispatches_disablingAtRequest :
    ∃ executed middle served,
      disablingAtRequest.Stages 4 executed middle served served ∧
        Execution.Dispatched Interrupt.joypad.index middle served ∧
        InRam (middle.cpu.sp - 1) ∧
        InRam (middle.cpu.sp - 2) ∧
        ∀ address : UInt16,
          address.toNat < 0x4000 →
            served.bus.read address =
              .ok (disablingProgram address.toNat) := by
  have disables : disablingAtRequest.bus.read 0x100 = .ok 0xF3 :=
    read_disablingAtRequest (by decide)
  obtain ⟨executed, middle, served, stages⟩ :=
    @stages_of_disable disablingAtRequest rfl disables (by decide)
      (by decide) rfl
  obtain ⟨middleCpu, middleBus⟩ := stages.middle_of_disable rfl disables
  have due : middle.due = Interrupt.joypad.bit := by
    rw [Execution.due, middleBus]
    exact Peripherals.due_advanceTo rfl _ _
  have enabled : middle.cpu.ime = true := congrArg Cpu.ime middleCpu
  obtain ⟨number, dispatched⟩ :=
    stages.service.dispatched_iff.mpr ⟨enabled, by rw [due]; decide⟩
  have lowest := stages.service.isLowestBit dispatched
  rw [due] at lowest
  obtain rfl : number = Interrupt.joypad.index :=
    lowest.unique ⟨by decide, by decide⟩
  have highInRam : InRam (middle.cpu.sp - 1) := by
    rw [middleCpu]
    decide
  have lowInRam : InRam (middle.cpu.sp - 2) := by
    rw [middleCpu]
    decide
  refine ⟨executed, middle, served, stages, dispatched, highInRam, lowInRam,
    ?_⟩
  intro address inside
  have belowPage : address.toNat < 0xFF00 := Nat.lt_trans inside (by simp)
  have belowRam : address.toNat < 0x8000 := Nat.lt_trans inside (by simp)
  rw [dispatched.read_eq highInRam lowInRam (.inl belowPage),
    Bus.read_pushed_rom highInRam lowInRam _ _ belowRam, middleBus,
    Bus.read_withPeripherals (.inl belowPage)]
  exact read_disablingAtRequest inside

/-- The handler of the joypad returns to the instruction behind the request. -/
theorem disable_is_lost_to_dispatch_disablingAtRequest :
    ∃ cycles final back,
      disablingAtRequest.step = .ok cycles final ∧
        final.toMachine.step = .ok 16 back ∧
        back.cpu.pc = 0x101 ∧
        back.cpu.sp = 0xFFFE ∧
        ∀ cycles next,
          back.toMachine.imeRequest? = none →
            back.toMachine.step = .ok cycles next →
            (next.cpu.ime = true ↔ ¬ back.toMachine.Dispatches) := by
  obtain ⟨executed, middle, served, stages, dispatched, -, -, code⟩ :=
    dispatches_disablingAtRequest
  obtain ⟨-, dropped⟩ :=
    disable_is_lost_to_dispatch rfl (by decide) (by decide)
      (read_disablingAtRequest (by decide)) stages.step_eq
  have returns : served.bus.read served.cpu.pc = .ok 0xD9 := by
    rw [dispatched.cpu]
    exact code 0x60 (by decide)
  obtain ⟨back, returned, backCpu, follows⟩ :=
    dropped (stages.dispatches_iff.mpr ⟨_, dispatched⟩) returns
  refine ⟨_, served, back, stages.step_eq, returned, ?_, ?_, ?_⟩
  · rw [backCpu]
    rfl
  · rw [backCpu]
    rfl
  · intro cycles next noRequest followed
    exact (follows cycles next noRequest followed).1

/--
Interrupts are enabled and no change is pending when the machine requests to disable
them; yet the master enable is set when the instruction behind the request has been
executed, right after the return of the handler.
-/
theorem enabled_after_disablingAtRequest :
    disablingAtRequest.cpu.ime = true ∧
      disablingAtRequest.cpu.pendingIme = none ∧
      InRam (disablingAtRequest.cpu.sp - 1) ∧
      InRam (disablingAtRequest.cpu.sp - 2) ∧
      disablingAtRequest.bus.read disablingAtRequest.cpu.pc = .ok 0xF3 ∧
      ∃ first back next,
        disablingAtRequest.step = .ok 24 first ∧
          first.bus.read first.cpu.pc = .ok 0xD9 ∧
          first.toMachine.step = .ok 16 back ∧
          back.cpu.pc = disablingAtRequest.cpu.pc + 1 ∧
          back.toMachine.imeRequest? = none ∧
          back.toMachine.step = .ok 4 next ∧
          next.cpu.ime = true := by
  obtain ⟨executed, middle, served, stages, dispatched, highInRam, lowInRam,
      code⟩ :=
    dispatches_disablingAtRequest
  obtain ⟨middleCpu, middleBus⟩ :=
    stages.middle_of_disable rfl (read_disablingAtRequest (by decide))
  have taken :
      served.cpu.cycles - disablingAtRequest.cpu.cycles = 24 := by
    rw [dispatched.cpu, middleCpu]
    rfl
  have stepped := stages.step_eq
  rw [taken] at stepped
  have noTransfer : served.bus.peripherals.transferPage = 0 := by
    rw [dispatched.transferPage highInRam lowInRam, middleBus]
    rfl
  have returns : served.bus.read served.cpu.pc = .ok 0xD9 := by
    rw [dispatched.cpu]
    exact code 0x60 (by decide)
  obtain ⟨back, returned, backCpu, backBus⟩ :=
    dispatched.step_returns highInRam lowInRam rfl (fun _ _ => rfl)
      noTransfer returns
  have behind : back.cpu.pc = 0x101 := by
    rw [backCpu, middleCpu]
    rfl
  have found : back.bus.read back.cpu.pc = .ok 0x00 := by
    rw [behind, backBus, Bus.read_withPeripherals (.inl (by decide))]
    exact code 0x101 (by decide)
  have awake : back.cpu.halted = false := by
    rw [backCpu]
  have waiting : back.cpu.pendingIme = some ⟨true, 0⟩ := by
    rw [backCpu]
  have sameEnable : back.bus.interruptEnable = 0x10 := by
    rw [backBus, dispatched.bus_eq highInRam lowInRam, middleBus]
    exact Bus.pushed_interruptEnable highInRam lowInRam _ _
  have withdrawn : served.bus.peripherals.requests &&& 0x10 = 0 := by
    have apart : ~~~Interrupt.joypad.bit &&& 0x10 = 0 := rfl
    rw [dispatched.bus_eq highInRam lowInRam, Interrupt.bitAt_index]
    dsimp only
    rw [UInt8.and_assoc, apart, UInt8.and_zero]
  have quiet :
      Interrupt.due back.bus.peripherals.requests
        back.bus.interruptEnable = 0 := by
    rw [sameEnable, backBus, Peripherals.due_advanceTo rfl,
      Interrupt.due, withdrawn, UInt8.zero_and]
  have stillNone : back.bus.peripherals.transferPage = 0 := by
    rw [backBus]
    exact noTransfer
  obtain ⟨next, followed, enabled, -⟩ :=
    step_of_nop awake found waiting (by rw [sameEnable]; rfl) quiet
      stillNone
  have noRequest : back.toMachine.imeRequest? = none := by
    rw [imeRequest?_of_found awake found]
    rfl
  exact
    ⟨rfl, rfl, by decide, by decide, read_disablingAtRequest (by decide),
      served, back, next, stepped, returns, returned, behind, noRequest,
      followed, enabled⟩

end Machine

end Dmg
