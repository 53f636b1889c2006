import Dmg.Proofs.Pace
import Dmg.Proofs.Steps

namespace Dmg

/-!
# The halt

A halted processor idles in slots of four cycles until a source is due.  Since the
peripherals catch up in portions as at once, so many slots are one jump of the clock:
they count their cycles, apply a change of the master enable that is pending, and leave
everything else alone.  The first slot after which a source is due ends the halt, with a
dispatch if the master enable is set.
-/

/-- The address lies in work RAM or in high RAM. -/
def InRam (address : UInt16) : Prop :=
  0xC000 ≤ address ∧ address ≤ 0xDFFF ∨
    0xFF80 ≤ address ∧ address ≤ 0xFFFE

instance : DecidablePred InRam :=
  fun _ => inferInstanceAs (Decidable (_ ∨ _))

/-- A store into RAM does not reach the register page. -/
theorem Bus.write_inRam_peripherals
    {address : UInt16}
    (inRam : InRam address)
    (bus : Bus)
    (value : UInt8) :
    (bus.write address value).peripherals = bus.peripherals := by
  rw [Bus.write_peripherals]
  apply Peripherals.write_outside_page
  rcases inRam with ⟨-, below⟩ | ⟨above, -⟩
  · exact .inl
      (Nat.lt_of_le_of_lt (UInt16.le_iff_toNat_le.mp below) (by decide))
  · exact .inr
      (Nat.le_trans (by decide) (UInt16.le_iff_toNat_le.mp above))

/-- A change that waits for no other step is applied by the latching. -/
theorem Cpu.latchIme_of_settled
    {cpu : Cpu}
    (settled :
      ∀ pending, cpu.pendingIme = some pending → pending.delay = 0) :
    cpu.latchIme =
      { cpu with
        ime := (cpu.pendingIme.map PendingIme.enable).getD cpu.ime
        pendingIme := none } := by
  cases waiting : cpu.pendingIme with
  | none =>
      rw [latchIme_of_none waiting, Option.map_none, Option.getD_none,
        ← waiting]
  | some pending =>
      obtain ⟨enable, delay⟩ := pending
      obtain rfl : delay = 0 := settled _ waiting
      rw [latchIme_of_due waiting]
      rfl

namespace Execution

variable {execution : Execution}

/-- Where nothing is due, nothing is served. -/
theorem serving_of_quiet (quiet : execution.due = 0) :
    execution.serving = execution := by
  unfold serving
  rw [due] at quiet
  rw [due, (Interrupt.mostUrgent?_due_eq_none_iff _ _).mpr quiet]

/-- Where no transfer is asked for, the transfer does nothing and succeeds. -/
theorem transfer_of_no_page
    (noTransfer : execution.bus.peripherals.transferPage = 0) :
    execution.bus.transfer.fault = none ∧
      execution.transferring = execution := by
  have nothing : execution.bus.transfer = ⟨execution.bus, none⟩ := by
    unfold Bus.transfer
    exact if_pos noTransfer
  unfold transferring
  rw [nothing]
  exact ⟨rfl, rfl⟩

/-- A dispatch whose push goes into RAM asks for no transfer. -/
theorem Dispatched.transferPage
    {number : Fin 5}
    {before after : Execution}
    (dispatched : Dispatched number before after)
    (highInRam : InRam (before.cpu.sp - 1))
    (lowInRam : InRam (before.cpu.sp - 2)) :
    after.bus.peripherals.transferPage =
      before.bus.peripherals.transferPage := by
  rw [dispatched.bus, Bus.write_inRam_peripherals lowInRam,
    Bus.write_inRam_peripherals highInRam]

/-- Where a push would go into RAM, the service of interrupts asks for no transfer. -/
theorem Service.transferPage
    {before after : Execution}
    (service : before.Service after)
    (highInRam : InRam (before.cpu.sp - 1))
    (lowInRam : InRam (before.cpu.sp - 2)) :
    after.bus.peripherals.transferPage =
      before.bus.peripherals.transferPage := by
  cases service with
  | none => rfl
  | wake => rfl
  | dispatch _ _ dispatched =>
      exact dispatched.transferPage highInRam lowInRam

end Execution

namespace Machine

/-- The cycle count after so many idle slots. -/
def countAfter
    (machine : Machine)
    (slots : Nat) :
    UInt64 :=
  machine.cpu.cycles + UInt64.ofNat (4 * slots)

/--
The machine after so many idle slots: the peripherals have caught up with the count in
one go, and a pending change of the master enable has been applied.
-/
def idled (machine : Machine) : Nat → Machine
  | 0 => machine
  | slots + 1 =>
      { cpu :=
          { machine.cpu with
            cycles := machine.countAfter (slots + 1)
            ime :=
              (machine.cpu.pendingIme.map PendingIme.enable).getD
                machine.cpu.ime
            pendingIme := none }
        bus :=
          { machine.bus with
            peripherals :=
              machine.bus.peripherals.advanceTo
                (machine.countAfter (slots + 1)) } }

/--
The time up to the end of so many idle slots can be taken from the countdowns at once.
-/
def SpansSlots
    (machine : Machine)
    (slots : Nat) :
    Prop :=
  machine.cpu.cycles.toNat + 4 * slots <
    machine.bus.peripherals.clock.toNat + 2 ^ 63

instance
    (machine : Machine)
    (slots : Nat) :
    Decidable (machine.SpansSlots slots) :=
  inferInstanceAs (Decidable (_ < _))

/-- The sources that are due once the peripherals have caught up with so many idle slots. -/
def dueAfter
    (machine : Machine)
    (slots : Nat) :
    UInt8 :=
  Interrupt.due
    (machine.bus.peripherals.advanceTo
      (machine.countAfter slots)).requests
    machine.bus.interruptEnable

section Fields

variable (machine : Machine) (slots : Nat)

@[simp] theorem idled_halted :
    (machine.idled slots).cpu.halted = machine.cpu.halted := by
  cases slots <;> rfl

@[simp] theorem idled_cycles :
    (machine.idled slots).cpu.cycles = machine.countAfter slots := by
  cases slots with
  | zero => exact (UInt64.add_zero _).symm
  | succ slots => rfl

@[simp] theorem idled_sp :
    (machine.idled slots).cpu.sp = machine.cpu.sp := by
  cases slots <;> rfl

@[simp] theorem idled_transferPage :
    (machine.idled slots).bus.peripherals.transferPage =
      machine.bus.peripherals.transferPage := by
  cases slots <;> rfl

/-- The count goes on from slot to slot. -/
theorem countAfter_idled :
    (machine.idled slots).countAfter 1 = machine.countAfter (slots + 1) := by
  cases slots with
  | zero => rfl
  | succ slots =>
      have fours : 4 * (slots + 1 + 1) = 4 * (slots + 1) + 4 * 1 := rfl
      unfold countAfter
      rw [fours, UInt64.ofNat_add, ← UInt64.add_assoc]
      rfl

end Fields

variable
  {machine : Machine}
  {slots : Nat}

/-- The count after idle slots that do not take it round the end of the clock. -/
theorem toNat_countAfter
    (inRange : machine.cpu.cycles.toNat + 4 * slots < 2 ^ 64) :
    (machine.countAfter slots).toNat =
      machine.cpu.cycles.toNat + 4 * slots := by
  have counted : (UInt64.ofNat (4 * slots)).toNat = 4 * slots := by
    rw [UInt64.toNat_ofNat', Nat.mod_eq_of_lt (by omega)]
  unfold countAfter
  rw [UInt64.toNat_add, counted, Nat.mod_eq_of_lt (by omega)]

theorem Settled.idled
    (settled : machine.Settled)
    (slots : Nat) :
    (machine.idled slots).Settled := by
  cases slots with
  | zero => exact settled
  | succ slots =>
      intro pending waiting
      cases waiting

/-- One idle slot further is one idle slot more. -/
theorem idled_idled
    (timely : machine.Timely)
    (spans : machine.SpansSlots (slots + 1)) :
    (machine.idled slots).idled 1 = machine.idled (slots + 1) := by
  cases slots with
  | zero => rfl
  | succ slots =>
      unfold SpansSlots at spans
      have next := machine.countAfter_idled (slots + 1)
      have behind := UInt64.le_iff_toNat_le.mp timely.behind
      have bounded := timely.bounded
      have counted :=
        @toNat_countAfter machine (slots + 1) (by omega)
      have countedNext :=
        @toNat_countAfter machine (slots + 2) (by omega)
      have clockAhead :
          machine.bus.peripherals.clock ≤ machine.countAfter (slots + 1) :=
        UInt64.le_iff_toNat_le.mpr (by omega)
      have countAhead :
          machine.countAfter (slots + 1) ≤ machine.countAfter (slots + 2) :=
        UInt64.le_iff_toNat_le.mpr (by omega)
      have elapsed :
          (machine.countAfter (slots + 2) -
            machine.bus.peripherals.clock).toNat < 2 ^ 63 := by
        rw [UInt64.toNat_sub_of_le _ _
          (UInt64.le_trans clockAhead countAhead)]
        omega
      -- The peripherals catch up in two portions as in one.
      have atOnce :=
        Peripherals.advanceTo_advanceTo timely.standing clockAhead
          countAhead elapsed
      rw [idled, next, idled, idled, atOnce]
      rfl

/-- What is due after an idle slot is what is due in the machine that it leaves. -/
theorem due_idled :
    Interrupt.due
        (machine.idled (slots + 1)).bus.peripherals.requests
        (machine.idled (slots + 1)).bus.interruptEnable =
      machine.dueAfter (slots + 1) :=
  rfl

/-- What is due after one idle slot further is what is due after one slot more. -/
theorem dueAfter_idled
    (timely : machine.Timely)
    (spans : machine.SpansSlots (slots + 1)) :
    (machine.idled slots).dueAfter 1 = machine.dueAfter (slots + 1) := by
  rw [← due_idled, idled_idled timely spans, due_idled]

/-- A halted processor executes nothing. -/
theorem executeOrIdle_of_halted (halted : machine.cpu.halted = true) :
    machine.perform .executeOrIdle = .ok 4 (.start machine) := by
  unfold perform Action.executeOrIdle
  rw [EStateM.run_bind]
  change
    EStateM.run
        (if machine.cpu.halted = true then pure Action.idleCost
          else Action.executeNext)
        (.start machine) = _
  rw [if_pos halted]
  rfl

/-- The cost of an idle slot elapses as the idle slot says. -/
theorem elapsing_idle (settled : machine.Settled) :
    (Execution.start machine).elapsing 4 =
      { toMachine := machine.idled 1
        journal := [.catchUp (machine.countAfter 1)] } := by
  let spent := (Execution.start machine).spending (.ofNat 4)
  have latched := @Cpu.latchIme_of_settled spent.cpu settled
  change (spent.withCpu spent.cpu.latchIme).catchingUp = _
  rw [latched]
  rfl

/-- An idle slot after which nothing is due. -/
theorem step_of_quiet
    (halted : machine.cpu.halted = true)
    (settled : machine.Settled)
    (noTransfer : machine.bus.peripherals.transferPage = 0)
    (quiet : machine.dueAfter 1 = 0) :
    ∃ execution,
      machine.step = .ok 4 execution ∧
        execution.toMachine = machine.idled 1 := by
  let slept : Execution :=
    { toMachine := machine.idled 1
      journal := [.catchUp (machine.countAfter 1)] }
  have elapsed : (Execution.start machine).elapsing 4 = slept :=
    elapsing_idle settled
  have served : slept.serving = slept :=
    Execution.serving_of_quiet quiet
  have transferred := @Execution.transfer_of_no_page slept noTransfer
  have stages :=
    Stages.of_complete (executeOrIdle_of_halted halted)
      (by rw [elapsed, served]; exact transferred.1)
  rw [elapsed, served, transferred.2] at stages
  refine ⟨slept, ?_, rfl⟩
  have counted : slept.cpu.cycles - machine.cpu.cycles = 4 := by
    change machine.cpu.cycles + 4 - machine.cpu.cycles = 4
    rw [UInt64.add_comm, UInt64.add_sub_cancel]
  rw [stages.step_eq, counted]

/--
An idle slot after which a source is due ends the halt, with a dispatch if the master
enable is set.
-/
theorem step_of_due
    (halted : machine.cpu.halted = true)
    (settled : machine.Settled)
    (noTransfer : machine.bus.peripherals.transferPage = 0)
    (highInRam : InRam (machine.cpu.sp - 1))
    (lowInRam : InRam (machine.cpu.sp - 2))
    (someDue : machine.dueAfter 1 ≠ 0) :
    ∃ cost execution,
      machine.step = .ok cost execution ∧
        execution.cpu.halted = false ∧
        ((machine.idled 1).cpu.ime = false →
          cost = 4 ∧
            execution.toMachine =
              { machine.idled 1 with
                cpu := { (machine.idled 1).cpu with halted := false } }) ∧
        ((machine.idled 1).cpu.ime = true →
          cost = 24 ∧
            ∃ number journal,
              Interrupt.IsLowestBit number (machine.dueAfter 1) ∧
                Execution.Dispatched number
                  { toMachine := machine.idled 1, journal := journal }
                  execution) := by
  let slept : Execution :=
    { toMachine := machine.idled 1
      journal := [.catchUp (machine.countAfter 1)] }
  have elapsed : (Execution.start machine).elapsing 4 = slept :=
    elapsing_idle settled
  have service := slept.service_serving
  have sameStack : slept.cpu.sp = machine.cpu.sp := rfl
  have page : slept.serving.bus.peripherals.transferPage = 0 :=
    (service.transferPage highInRam lowInRam).trans noTransfer
  have transferred := Execution.transfer_of_no_page page
  have stages :=
    Stages.of_complete (executeOrIdle_of_halted halted)
      (by rw [elapsed]; exact transferred.1)
  rw [elapsed, transferred.2] at stages
  refine ⟨_, slept.serving, stages.step_eq, ?_⟩
  have counted : slept.cpu.cycles = 4 + machine.cpu.cycles :=
    UInt64.add_comm _ _
  generalize slept.serving = served at service
  cases service with
  | none nothingDue => exact absurd nothingDue someDue
  | wake _ disabled =>
      refine ⟨rfl, fun _ => ⟨?_, rfl⟩, fun enabled => ?_⟩
      · rw [Execution.withCpu_cpu, counted, UInt64.add_sub_cancel]
      · cases enabled.symm.trans disabled
  | dispatch enabled lowest dispatched =>
      refine ⟨?_, fun disabled => ?_, fun _ => ⟨?_, _, _, lowest, dispatched⟩⟩
      · rw [dispatched.cpu]
      · cases enabled.symm.trans disabled
      · rw [dispatched.cpu, counted]
        grind

/-- Idle slots fewer than others span less time. -/
theorem SpansSlots.of_succ (spans : machine.SpansSlots (slots + 1)) :
    machine.SpansSlots slots :=
  Nat.lt_of_le_of_lt (by omega) spans

/-- A machine that has idled idles on as long as nothing is due. -/
theorem step_idled
    (timely : machine.Timely)
    (halted : machine.cpu.halted = true)
    (noTransfer : machine.bus.peripherals.transferPage = 0)
    (spans : machine.SpansSlots (slots + 1))
    (quiet : machine.dueAfter (slots + 1) = 0) :
    ∃ execution,
      (machine.idled slots).step = .ok 4 execution ∧
        execution.toMachine = machine.idled (slots + 1) := by
  rw [← idled_idled timely spans]
  rw [← dueAfter_idled timely spans] at quiet
  exact step_of_quiet
    ((machine.idled_halted slots).trans halted)
    (timely.settled.idled slots)
    ((machine.idled_transferPage slots).trans noTransfer) quiet

/-- As long as nothing is due, idle slots follow one another. -/
theorem steps_of_quiet
    (timely : machine.Timely)
    (halted : machine.cpu.halted = true)
    (noTransfer : machine.bus.peripherals.transferPage = 0)
    (spans : machine.SpansSlots slots)
    (quiet :
      ∀ earlier, 1 ≤ earlier → earlier ≤ slots →
        machine.dueAfter earlier = 0) :
    machine.Steps (List.replicate slots 4) (machine.idled slots) := by
  induction slots with
  | zero => exact .none machine
  | succ slots inductionHypothesis =>
      have before :=
        inductionHypothesis spans.of_succ fun earlier positive below =>
          quiet earlier positive (Nat.le_succ_of_le below)
      obtain ⟨execution, stepped, left⟩ :=
        step_idled timely halted noTransfer spans
          (quiet (slots + 1) (by omega) (Nat.le_refl _))
      rw [List.replicate_succ', ← left]
      exact before.snoc stepped

/--
A halt is a jump of the clock up to the first slot after which a source is due.  Before
it, slots return their four cycles, and so many of them leave the machine as if the
peripherals had caught up once; a pending change of the master enable is applied, and
nothing else changes.  That slot executes no instruction either; it ends the halt, and
dispatches the due interrupt of the lowest bit if the master enable is then set.  The
jump must not be so long that the countdowns would take it for a negative time.
-/
theorem halt_skips_to_first_due
    (attained : machine.Attained)
    (halted : machine.cpu.halted = true)
    (noTransfer : machine.bus.peripherals.transferPage = 0)
    (highInRam : InRam (machine.cpu.sp - 1))
    (lowInRam : InRam (machine.cpu.sp - 2))
    (slots : Nat)
    (quiet :
      ∀ earlier, 1 ≤ earlier → earlier ≤ slots →
        machine.dueAfter earlier = 0) :
    (machine.SpansSlots slots →
        machine.Steps (List.replicate slots 4) (machine.idled slots)) ∧
      (machine.SpansSlots (slots + 1) →
        machine.dueAfter (slots + 1) ≠ 0 →
        let before := machine.idled slots
        let slept := machine.idled (slots + 1)
        before.perform .executeOrIdle = .ok 4 (.start before) ∧
          ∃ cost final,
            before.step = .ok cost final ∧
              final.cpu.halted = false ∧
              (slept.cpu.ime = false →
                cost = 4 ∧
                  final.toMachine =
                    { slept with
                      cpu := { slept.cpu with halted := false } }) ∧
              (slept.cpu.ime = true →
                cost = 24 ∧
                  ∃ number journal,
                    Interrupt.IsLowestBit number
                        (machine.dueAfter (slots + 1)) ∧
                      Execution.Dispatched number
                        { toMachine := slept, journal := journal }
                        final)) := by
  have timely := attained.timely
  constructor
  · intro spans
    exact steps_of_quiet timely halted noTransfer spans quiet
  · intro spans someDue
    have stillHalted := (machine.idled_halted slots).trans halted
    have dueNext := dueAfter_idled timely spans
    rw [← idled_idled timely spans, ← dueNext]
    rw [← dueNext] at someDue
    rw [← machine.idled_sp slots] at highInRam lowInRam
    exact ⟨executeOrIdle_of_halted stillHalted,
      step_of_due stillHalted (timely.settled.idled slots)
        ((machine.idled_transferPage slots).trans noTransfer)
        highInRam lowInRam someDue⟩

/-- Peripherals at power-on but for a counter that overflows at its second increment. -/
def overflowing : Peripherals :=
  { Peripherals.powerOn with
    timer := { Timer.powerOn with control := 0x05, counter := 0xFE } }

/-- A halted processor that waits for the overflow. -/
def awaitingOverflow : Machine where
  cpu := { Cpu.powerOn with halted := true, ime := true }
  bus :=
    { Bus.powerOn .blank with
      interruptEnable := Interrupt.timer.bit
      peripherals := overflowing }

/-- The counter overflows after sixteen cycles, which are four slots. -/
theorem halt_skips_to_first_due_awaitingOverflow :
    awaitingOverflow.Attained ∧
      awaitingOverflow.Steps [4, 4, 4] (awaitingOverflow.idled 3) ∧
        ∃ final,
          (awaitingOverflow.idled 3).step = .ok 24 final ∧
            final.cpu.halted = false ∧
              final.cpu.pc = Interrupt.timer.vector := by
  have attained : awaitingOverflow.Attained :=
    .set (.powerOn .blank) rfl rfl ⟨rfl, rfl, rfl, rfl⟩
  have quiet :
      ∀ earlier < 4, awaitingOverflow.dueAfter earlier = 0 := by
    decide +kernel
  have overflow : awaitingOverflow.dueAfter 4 = Interrupt.timer.bit := by
    decide +kernel
  obtain ⟨steps, wakes⟩ :=
    halt_skips_to_first_due attained rfl rfl (by decide) (by decide) 3
      fun earlier _ atMost => quiet earlier (Nat.lt_succ_of_le atMost)
  obtain ⟨-, cost, final, stepped, awake, -, dispatches⟩ :=
    wakes (by decide) (by rw [overflow]; decide)
  obtain ⟨rfl, number, journal, lowest, dispatched⟩ := dispatches rfl
  have timer : number = Interrupt.timer.index := by
    rw [overflow] at lowest
    exact lowest.unique ⟨by decide, by decide⟩
  refine ⟨attained, steps (by decide), final, stepped, awake, ?_⟩
  rw [dispatched.cpu, timer, Interrupt.vectorAt_index]

end Machine

end Dmg
