import Dmg.Proofs.ClockLock
import Dmg.Proofs.FailureFrame
import Dmg.Proofs.MasterEnable

namespace Dmg

/-!
# What holds between steps

The clock of the peripherals, their countdowns and a pending change of the master enable
cannot be set from outside.  Between steps the clock is not ahead of the processor, no
countdown has run below zero, and a pending change waits for the next step and no
longer, whatever has been executed or asked for, and whether or not it succeeded.
-/

namespace Peripherals

/-- Two states of the page agree in the clock and in every countdown. -/
structure SamePace (earlier later : Peripherals) : Prop where
  clock : later.clock = earlier.clock
  divider :
    later.timer.dividerCountdown = earlier.timer.dividerCountdown
  counter :
    later.timer.counterCountdown = earlier.timer.counterCountdown
  line : later.lcd.lineCountdown = earlier.lcd.lineCountdown

namespace SamePace

variable {first second third : Peripherals}

theorem refl (peripherals : Peripherals) :
    peripherals.SamePace peripherals where
  clock := rfl
  divider := rfl
  counter := rfl
  line := rfl

theorem trans
    (toSecond : first.SamePace second)
    (toThird : second.SamePace third) :
    first.SamePace third where
  clock := toThird.clock.trans toSecond.clock
  divider := toThird.divider.trans toSecond.divider
  counter := toThird.counter.trans toSecond.counter
  line := toThird.line.trans toSecond.line

/-- A store into a register touches neither the clock nor a countdown. -/
theorem write
    (peripherals : Peripherals)
    (address : UInt16)
    (value : UInt8) :
    peripherals.SamePace (peripherals.write address value) := by
  unfold Peripherals.write
  cases Register.ofAddress? address with
  | none => exact refl peripherals
  | some register =>
      cases register with
      | timer timerRegister =>
          cases timerRegister <;> exact ⟨rfl, rfl, rfl, rfl⟩
      | lcd lcdRegister =>
          cases lcdRegister <;> exact ⟨rfl, rfl, rfl, rfl⟩
      | _ => exact ⟨rfl, rfl, rfl, rfl⟩

/-- Whether a countdown has run below zero depends on the countdowns alone. -/
theorem standing
    (samePace : first.SamePace second)
    (firstStanding : first.Standing) :
    second.Standing where
  timer := {
    divider := by
      rw [samePace.divider]
      exact firstStanding.timer.divider
    counter := by
      rw [samePace.counter]
      exact firstStanding.timer.counter }
  lcd := by
    unfold Lcd.Standing
    rw [samePace.line]
    exact firstStanding.lcd

end SamePace

end Peripherals

namespace Bus

theorem samePace_write
    (bus : Bus)
    (address : UInt16)
    (value : UInt8) :
    bus.peripherals.SamePace (bus.write address value).peripherals := by
  rw [write_peripherals]
  exact .write bus.peripherals address value

theorem samePace_transfer (bus : Bus) :
    bus.peripherals.SamePace bus.transfer.bus.peripherals := by
  obtain ⟨bytes, page, transferred⟩ := bus.transfer_frame
  rw [transferred]
  exact ⟨rfl, rfl, rfl, rfl⟩

end Bus

namespace Execution

variable {start final : Execution}

/-- An instruction moves neither the clock nor a countdown. -/
theorem samePace_of_moves (moves : Moves start final) :
    start.bus.peripherals.SamePace final.bus.peripherals := by
  induction moves with
  | refl => exact .refl _
  | tail _ move inductionHypothesis =>
      cases move with
      | registers => exact inductionHypothesis
      | note => exact inductionHypothesis
      | store address value =>
          exact inductionHypothesis.trans (Bus.samePace_write _ address value)

/-- A dispatch reaches the page by withdrawing a request and by the push at most. -/
theorem Dispatched.samePace
    {number : Fin 5}
    (dispatched : Dispatched number start final) :
    start.bus.peripherals.SamePace final.bus.peripherals := by
  rw [dispatched.bus]
  refine .trans ?_ (Bus.samePace_write _ _ _)
  refine .trans ?_ (Bus.samePace_write _ _ _)
  exact ⟨rfl, rfl, rfl, rfl⟩

namespace Service

variable (service : start.Service final)
include service

theorem samePace :
    start.bus.peripherals.SamePace final.bus.peripherals := by
  cases service with
  | none => exact .refl _
  | wake => exact .refl _
  | dispatch _ _ dispatched => exact dispatched.samePace

/-- A pending change is kept, or dropped by a dispatch. -/
theorem pendingIme :
    final.cpu.pendingIme = Option.none ∨
      final.cpu.pendingIme = start.cpu.pendingIme := by
  cases service with
  | none => exact .inr rfl
  | wake => exact .inr rfl
  | dispatch _ _ dispatched =>
      left
      rw [dispatched.cpu]

end Service

end Execution

/-- A change that waits for at most one more step does not wait after the latching. -/
theorem Cpu.latchIme_delay
    {cpu : Cpu}
    (waits :
      ∀ pending, cpu.pendingIme = some pending → pending.delay ≤ 1) :
    ∀ pending,
      cpu.latchIme.pendingIme = some pending → pending.delay = 0 := by
  intro left waiting
  unfold latchIme at waiting
  cases before : cpu.pendingIme with
  | none =>
      rw [before] at waiting
      cases before.symm.trans waiting
  | some pending =>
      have atMost := waits pending before
      rw [before] at waiting
      dsimp only at waiting
      split at waiting
      · cases waiting
      · cases waiting
        exact Nat.sub_eq_zero_of_le atMost

namespace Machine

/--
Between steps the peripherals are not ahead of the processor, whose count is within half
the range of the clock, no countdown has run below zero, and a pending change of the
master enable waits for no other step than the next.
-/
structure Timely (machine : Machine) : Prop where
  behind : machine.bus.peripherals.clock ≤ machine.cpu.cycles
  bounded : machine.cpu.cycles.toNat < 2 ^ 63
  standing : machine.bus.peripherals.Standing
  settled : machine.Settled

variable {machine later : Machine}

namespace Timely

theorem powerOn (cartridge : Cartridge) :
    (Machine.powerOn cartridge).Timely where
  behind := UInt64.le_refl _
  bounded := Nat.two_pow_pos 63
  standing := .powerOn
  settled := by
    intro pending waiting
    cases waiting

/-- The time that passes after the catching up leaves the clock behind. -/
theorem of_later
    (timely : machine.Timely)
    (laterCycles : machine.cpu.cycles ≤ later.cpu.cycles)
    (bounded : later.cpu.cycles.toNat < 2 ^ 63)
    (pendingIme :
      later.cpu.pendingIme = none ∨
        later.cpu.pendingIme = machine.cpu.pendingIme)
    (samePace :
      machine.bus.peripherals.SamePace later.bus.peripherals) :
    later.Timely where
  behind := by
    rw [samePace.clock]
    exact UInt64.le_trans timely.behind laterCycles
  bounded := bounded
  standing := samePace.standing timely.standing
  settled := by
    intro pending waiting
    rcases pendingIme with dropped | kept
    · rw [dropped] at waiting
      cases waiting
    · rw [kept] at waiting
      exact timely.settled pending waiting

/-- Nothing else about a machine matters than what cannot be set from outside. -/
theorem of_same
    (timely : machine.Timely)
    (sameCycles : later.cpu.cycles = machine.cpu.cycles)
    (samePending : later.cpu.pendingIme = machine.cpu.pendingIme)
    (samePace :
      machine.bus.peripherals.SamePace later.bus.peripherals) :
    later.Timely := by
  refine timely.of_later ?_ ?_ (.inr samePending) samePace
  · exact UInt64.le_of_eq sameCycles.symm
  · rw [sameCycles]
    exact timely.bounded

end Timely

/-- What is pending after an instruction waits for one more step at most. -/
theorem delay_executeOrIdle
    (settled : machine.Settled)
    {cost : Nat}
    {executed : Execution}
    (executes : machine.perform .executeOrIdle = .ok cost executed) :
    ∀ pending,
      executed.cpu.pendingIme = some pending → pending.delay ≤ 1 := by
  intro pending waiting
  have left := executeOrIdle_pendingIme.of_ok executes
  rw [left] at waiting
  cases requested : machine.imeRequest? with
  | some enable =>
      rw [requested] at waiting
      cases waiting
      exact Nat.le_refl 1
  | none =>
      rw [requested] at waiting
      rw [settled pending waiting]
      exact Nat.zero_le 1

/-- An instruction that fails leaves what is pending. -/
theorem pendingIme_executeOrIdle_error
    {fault : Fault}
    {executed : Execution}
    (fails : machine.perform .executeOrIdle = .error fault executed) :
    executed.cpu.pendingIme = machine.cpu.pendingIme := by
  have ensured :
      Action.Ensures .executeOrIdle (.start machine)
        (fun _ _ => True)
        (fun _ left => left.cpu.pendingIme = machine.cpu.pendingIme) := by
    unfold Action.executeOrIdle
    rw [Action.ensures_bind, Action.ensures_cpu, Action.ensures_ite]
    split
    · trivial
    · refine (Action.executeNext_failure (.start machine)).mono
        (fun _ _ _ => trivial) ?_
      intro fault left failure
      rw [failure.spares.cpu]
      rfl
  exact ensured.of_error fails

end Machine

namespace Execution

variable
  {machine : Machine}
  {executed : Execution}
  {cost : Nat}

/-- After an instruction the peripherals catch up with the processor. -/
theorem timely_elapsing
    (timely : machine.Timely)
    (moves : Moves (.start machine) executed)
    (waits :
      ∀ pending,
        executed.cpu.pendingIme = some pending → pending.delay ≤ 1)
    (ahead : machine.cpu.cycles ≤ (executed.elapsing cost).cpu.cycles)
    (bounded : (executed.elapsing cost).cpu.cycles.toNat < 2 ^ 63) :
    (executed.elapsing cost).toMachine.Timely := by
  have samePace := samePace_of_moves moves
  have clockBehind :
      executed.bus.peripherals.clock ≤
        (executed.elapsing cost).cpu.cycles := by
    rw [samePace.clock]
    exact UInt64.le_trans timely.behind ahead
  have elapsed :
      (executed.bus.peripherals.elapsedUntil
        (executed.elapsing cost).cpu.cycles).toNat < 2 ^ 63 := by
    rw [Peripherals.elapsedUntil_of_le clockBehind,
      UInt64.toNat_sub_of_le _ _ clockBehind]
    omega
  constructor
  · exact UInt64.le_refl _
  · exact bounded
  · exact (samePace.standing timely.standing).advanceTo elapsed
  · exact Cpu.latchIme_delay waits

/-- After interrupts and the transfer, too, the peripherals are not ahead. -/
theorem timely_settling
    (timely : machine.Timely)
    (moves : Moves (.start machine) executed)
    (isCost : Cost cost)
    (waits :
      ∀ pending,
        executed.cpu.pendingIme = some pending → pending.delay ≤ 1)
    (within :
      (executed.elapsing cost).settling.cpu.cycles.toNat < 2 ^ 63) :
    (executed.elapsing cost).settling.toMachine.Timely := by
  have bounded := timely.bounded
  have costBound := isCost.2.2
  have counts :=
    (Counts.of_moves moves).trans (executed.counts_elapsing cost)
  have inRange :
      (Execution.start machine).cpu.cycles.toNat + (0 + cost) < 2 ^ 64 := by
    change machine.cpu.cycles.toNat + (0 + cost) < 2 ^ 64
    omega
  have counted :
      (executed.elapsing cost).cpu.cycles.toNat =
        machine.cpu.cycles.toNat + (0 + cost) :=
    counts.toNat inRange
  -- The dispatch comes after the catching up, and only adds to the count.
  obtain ⟨service, isService, settles⟩ :=
    (executed.elapsing cost).counts_settling
  have serviceBound : service ≤ 20 := by
    rcases isService with none | one
    · omega
    · omega
  have total := settles.toNat (by omega)
  have elapsed :=
    timely_elapsing timely moves waits (counts.le inRange) (by omega)
  have served := (executed.elapsing cost).service_serving
  exact elapsed.of_later (settles.le (by omega)) within served.pendingIme
    (served.samePace.trans (Bus.samePace_transfer _))

end Execution

/-- A step leaves a machine timely, whether or not it succeeds. -/
theorem Action.step_timely
    {machine : Machine}
    (timely : machine.Timely) :
    Ensures step (.start machine)
      (fun _ final =>
        final.cpu.cycles.toNat < 2 ^ 63 → final.toMachine.Timely)
      (fun _ final =>
        final.cpu.cycles.toNat < 2 ^ 63 → final.toMachine.Timely) := by
  rw [ensures_step]
  have moving := executeOrIdle_moving (.start machine)
  unfold Ensures
  cases executes : executeOrIdle.run (.start machine) with
  | ok cost executed =>
      obtain ⟨moves, isCost⟩ := moving.of_ok executes
      have waits := Machine.delay_executeOrIdle timely.settled executes
      have settled := Execution.timely_settling timely moves isCost waits
      dsimp only
      split
      · exact settled
      · exact settled
  | error fault executed =>
      have moves := moving.of_error executes
      intro _
      exact timely.of_same (Execution.Counts.of_moves moves).same
        (Machine.pendingIme_executeOrIdle_error executes)
        (Execution.samePace_of_moves moves)

namespace Session

/-- One execution further, the machine of a session is still timely. -/
theorem Next.timely
    {earlier later : Session}
    (next : Next earlier later)
    (timely : earlier.machine.Timely)
    (laterBounded : later.machine.cpu.cycles.toNat < 2 ^ 63) :
    later.machine.Timely := by
  cases next with
  | step => exact (Action.step_timely timely).execution laterBounded
  | poke address value =>
      exact timely.of_same rfl rfl (Bus.samePace_write _ address value)
  | press pressed => exact timely.of_same rfl rfl ⟨rfl, rfl, rfl, rfl⟩
  | request source => exact timely.of_same rfl rfl ⟨rfl, rfl, rfl, rfl⟩
  | interrupt source =>
      have bounded := timely.bounded
      have offered := Machine.execution_interrupt earlier.machine source
      rw [offered] at laterBounded
      rw [offered]
      unfold Execution.offering at laterBounded ⊢
      split
      case isFalse => exact timely
      case isTrue accepted =>
        rw [if_pos accepted] at laterBounded
        let start := Execution.start earlier.machine
        have dispatched := start.dispatched_dispatching source
        have counted := start.counts_dispatching source
        have inRange : start.cpu.cycles.toNat + 20 < 2 ^ 64 := by
          change earlier.machine.cpu.cycles.toNat + 20 < 2 ^ 64
          omega
        exact timely.of_later (counted.le inRange) laterBounded
          (.inl (congrArg Cpu.pendingIme dispatched.cpu))
          dispatched.samePace
  | transfer =>
      rw [Machine.execution_transfer]
      exact timely.of_same rfl rfl (Bus.samePace_transfer _)

/-- A session within the clock leaves its machine timely. -/
theorem timely_of_later
    {earlier later : Session}
    (timely : earlier.machine.Timely)
    (runs : Later earlier later)
    (within : later.WithinClock) :
    later.machine.Timely := by
  let holds (session : Session) : Prop := session.machine.Timely
  have initially : holds earlier := timely
  exact holds_of_later initially Next.timely runs within

end Session

namespace Machine

/--
A machine that can be attained from outside: from any machine at power-on, by calls that
stay within half the range of the clock, successful or not, and by setting whatever can
be set between them.
-/
inductive Attained : Machine → Prop where
  | powerOn
      (cartridge : Cartridge) :
      Attained (.powerOn cartridge)
  | call
      {machine : Machine}
      (attained : Attained machine)
      (call : Call)
      (within : ((Session.start machine).after call).WithinClock) :
      Attained ((Session.start machine).after call).machine
  | set
      {machine later : Machine}
      (attained : Attained machine)
      (sameCycles : later.cpu.cycles = machine.cpu.cycles)
      (samePending : later.cpu.pendingIme = machine.cpu.pendingIme)
      (samePace :
        machine.bus.peripherals.SamePace later.bus.peripherals) :
      Attained later

theorem Attained.timely
    {machine : Machine}
    (attained : Attained machine) :
    machine.Timely := by
  induction attained with
  | powerOn cartridge => exact .powerOn cartridge
  | call _ call within inductionHypothesis =>
      exact Session.timely_of_later inductionHypothesis
        (Session.later_after _ call) within
  | set _ sameCycles samePending samePace inductionHypothesis =>
      exact inductionHypothesis.of_same sameCycles samePending samePace

end Machine

end Dmg
