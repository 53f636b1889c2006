import Dmg.Proofs.MemoryMap
import Dmg.Proofs.Phase
import Dmg.Proofs.Session
import Dmg.Proofs.StepCost

namespace Dmg

/-!
# The counters keep step with the clock

In a machine that has been started on any cartridge and used in any way, the divider
and the line counter, and what is left of their current periods, are functions of the
cycle count that the peripherals last caught up with and of its values when each of
the two was last cleared.  No cycle is lost between them or counted twice, whether an
instruction, an idle halt or the dispatch of an interrupt took it, and no store shifts
the periods.
-/

/-- The cycle count that the peripherals last caught up with; the latest event is first. -/
def lastCatchUp : List Event → Nat
  | [] => 0
  | .catchUp cycles :: _ => cycles.toNat
  | _ :: earlier => lastCatchUp earlier

/-- The count caught up with before the latest store at an address; zero if there was none. -/
def catchUpBeforeStore (address : UInt16) : List Event → Nat
  | [] => 0
  | .write stored _ :: earlier =>
      if stored = address then
        lastCatchUp earlier
      else
        catchUpBeforeStore address earlier
  | _ :: earlier => catchUpBeforeStore address earlier

/-- An event that is neither a store nor a catching up tells nothing about the clock. -/
theorem Event.Silent.lastCatchUp_cons
    {event : Event}
    (silent : event.Silent)
    (earlier : List Event) :
    lastCatchUp (event :: earlier) = lastCatchUp earlier := by
  cases event with
  | catchUp cycles => exact silent.elim
  | _ => rfl

/-- An event that is neither a store nor a catching up is no store. -/
theorem Event.Silent.catchUpBeforeStore_cons
    {event : Event}
    (silent : event.Silent)
    (address : UInt16)
    (earlier : List Event) :
    catchUpBeforeStore address (event :: earlier) =
      catchUpBeforeStore address earlier := by
  cases event with
  | write stored value => exact silent.elim
  | _ => rfl

/-- The peripherals are not ahead of the processor, and are in phase as the history says. -/
structure Machine.Locked
    (machine : Machine)
    (history : List Event) :
    Prop where
  behind : machine.bus.peripherals.clock ≤ machine.cpu.cycles
  recorded : lastCatchUp history = machine.bus.peripherals.clock.toNat
  inPhase :
    machine.bus.peripherals.InPhase
      (catchUpBeforeStore 0xFF04 history)
      (catchUpBeforeStore 0xFF44 history)

namespace Machine.Locked

variable {machine : Machine} {history : List Event}

/-- A machine starts locked. -/
theorem powerOn (cartridge : Cartridge) :
    (Machine.powerOn cartridge).Locked [] where
  behind := UInt64.le_refl _
  recorded := rfl
  inPhase := .powerOn

/-- The lock says of the processor only that its count is not behind. -/
theorem withCpu
    (locked : machine.Locked history)
    {cpu : Cpu}
    (ahead : machine.cpu.cycles ≤ cpu.cycles) :
    Machine.Locked { machine with cpu := cpu } history where
  behind := UInt64.le_trans locked.behind ahead
  recorded := locked.recorded
  inPhase := locked.inPhase

/-- The lock says of the bus only where its clock, its timer and its display stand. -/
theorem withBus
    (locked : machine.Locked history)
    {bus : Bus}
    (sameClock : bus.peripherals.clock = machine.bus.peripherals.clock)
    (sameTimer : bus.peripherals.timer = machine.bus.peripherals.timer)
    (sameLcd : bus.peripherals.lcd = machine.bus.peripherals.lcd) :
    Machine.Locked { machine with bus := bus } history where
  behind := by
    rw [sameClock]
    exact locked.behind
  recorded := by
    rw [sameClock]
    exact locked.recorded
  inPhase := locked.inPhase.of_same sameClock sameTimer sameLcd

/-- An event that tells nothing about the clock may be noted. -/
theorem note
    (locked : machine.Locked history)
    {event : Event}
    (silent : event.Silent) :
    machine.Locked (event :: history) := by
  refine ⟨locked.behind, ?_, ?_⟩
  · rw [silent.lastCatchUp_cons]
    exact locked.recorded
  · rw [silent.catchUpBeforeStore_cons, silent.catchUpBeforeStore_cons]
    exact locked.inPhase

/-- A store, once noted, keeps the lock. -/
theorem store
    (locked : machine.Locked history)
    (address : UInt16)
    (value : UInt8) :
    Machine.Locked { machine with bus := machine.bus.write address value }
      (.write address value :: history) := by
  -- A store outside the page is none to the page, so one case serves all addresses.
  have page := machine.bus.write_peripherals address value
  have written := locked.inPhase.write address value
  rw [← locked.recorded] at written
  constructor
  · rw [page, Peripherals.write_clock]
    exact locked.behind
  · rw [page, Peripherals.write_clock]
    exact locked.recorded
  · rw [page]
    simp only [catchUpBeforeStore]
    exact written

/-- Catching up with the processor, once noted, keeps the lock. -/
theorem catchUp
    (locked : machine.Locked history)
    (bounded : machine.cpu.cycles.toNat < 2 ^ 63) :
    Machine.Locked
      { machine with
        bus :=
          { machine.bus with
            peripherals :=
              machine.bus.peripherals.advanceTo machine.cpu.cycles } }
      (.catchUp machine.cpu.cycles :: history) where
  behind := UInt64.le_refl _
  recorded := rfl
  inPhase := locked.inPhase.advanceTo locked.behind bounded

end Machine.Locked

/-- The machine of an execution is locked to what it recorded and to what was before. -/
def Execution.Locked
    (earlier : List Event)
    (execution : Execution) :
    Prop :=
  execution.toMachine.Locked (execution.journal ++ earlier)

namespace Execution

variable
  {earlier : List Event}
  {start final : Execution}

theorem Locked.withCpu
    (locked : start.Locked earlier)
    {cpu : Cpu}
    (ahead : start.cpu.cycles ≤ cpu.cycles) :
    (start.withCpu cpu).Locked earlier :=
  Machine.Locked.withCpu locked ahead

theorem Locked.withBus
    (locked : start.Locked earlier)
    {bus : Bus}
    (sameClock : bus.peripherals.clock = start.bus.peripherals.clock)
    (sameTimer : bus.peripherals.timer = start.bus.peripherals.timer)
    (sameLcd : bus.peripherals.lcd = start.bus.peripherals.lcd) :
    (start.withBus bus).Locked earlier :=
  Machine.Locked.withBus locked sameClock sameTimer sameLcd

theorem Locked.move
    (locked : start.Locked earlier)
    (move : Move start final) :
    final.Locked earlier := by
  cases move with
  | registers cpu sameCycles sameIme =>
      exact locked.withCpu (UInt64.le_of_eq sameCycles.symm)
  | note event silent => exact Machine.Locked.note locked silent
  | store address value => exact Machine.Locked.store locked address value

theorem Locked.moves
    (locked : start.Locked earlier)
    (moves : Moves start final) :
    final.Locked earlier := by
  induction moves with
  | refl => exact locked
  | tail _ move inductionHypothesis => exact inductionHypothesis.move move

/-- To spend cycles keeps the lock if the count stays in the range of the clock. -/
theorem Locked.spending
    (locked : start.Locked earlier)
    {cycles : Nat}
    (inRange : start.cpu.cycles.toNat + cycles < 2 ^ 64) :
    (start.spending (.ofNat cycles)).Locked earlier := by
  have counts : start.Counts cycles (start.spending (.ofNat cycles)) :=
    rfl
  exact locked.withCpu (counts.le inRange)

/--
What elapses is caught up with, so that the lock is kept as long as the count stays
within half the range of the clock.
-/
theorem Locked.elapsing
    (locked : start.Locked earlier)
    {cost : Nat}
    (inRange : start.cpu.cycles.toNat + cost < 2 ^ 64)
    (within : (start.elapsing cost).cpu.cycles.toNat < 2 ^ 63) :
    (start.elapsing cost).Locked earlier := by
  let spent := start.spending (.ofNat cost)
  have latched : (spent.withCpu spent.cpu.latchIme).Locked earlier :=
    (locked.spending inRange).withCpu
      (UInt64.le_of_eq spent.cpu.latchIme_cycles.symm)
  exact Machine.Locked.catchUp latched within

theorem Locked.dispatching
    (locked : start.Locked earlier)
    (inRange : start.cpu.cycles.toNat + 20 < 2 ^ 64)
    (source : Interrupt) :
    (start.dispatching source).Locked earlier := by
  let waiting :=
    { start.cpu with
      ime := false
      pendingIme := none
      halted := false }
  have waitingLocked : (start.withCpu waiting).Locked earlier :=
    locked.withCpu (UInt64.le_refl _)
  have acknowledged : (start.acknowledging source).Locked earlier :=
    waitingLocked.withBus rfl rfl rfl
  have called :=
    acknowledged.moves
      ((start.acknowledging source).moves_calling source.vector)
  exact called.spending inRange

theorem Locked.offering
    (locked : start.Locked earlier)
    (inRange : start.cpu.cycles.toNat + 20 < 2 ^ 64)
    (source : Interrupt) :
    (start.offering source).Locked earlier := by
  unfold Execution.offering
  split
  · exact locked.dispatching inRange source
  · exact locked

theorem Locked.serving
    (locked : start.Locked earlier)
    (inRange : start.cpu.cycles.toNat + 20 < 2 ^ 64) :
    start.serving.Locked earlier := by
  unfold Execution.serving
  split
  · exact locked
  · next source _ =>
      have awake :
          (start.withCpu { start.cpu with halted := false }).Locked
            earlier :=
        locked.withCpu (UInt64.le_refl _)
      exact awake.offering inRange source

/-- A transfer keeps the lock, whether or not it is cut short. -/
theorem Locked.transferring (locked : start.Locked earlier) :
    start.transferring.Locked earlier := by
  obtain ⟨sameClock, sameTimer, sameLcd⟩ := start.bus.transfer_peripherals
  exact locked.withBus sameClock sameTimer sameLcd

/--
An instruction and what follows it keep the lock, as long as the count that they end
with is within half the range of the clock.
-/
theorem Locked.settling
    {middle : Execution}
    {cost : Nat}
    (locked : start.Locked earlier)
    (moves : Moves start middle)
    (isCost : Cost cost)
    (bounded : start.cpu.cycles.toNat < 2 ^ 63)
    (within :
      (middle.elapsing cost).settling.cpu.cycles.toNat < 2 ^ 63) :
    (middle.elapsing cost).settling.Locked earlier := by
  have executed := (Counts.of_moves moves).same
  have costBound := isCost.2.2
  have inRange : middle.cpu.cycles.toNat + cost < 2 ^ 64 := by
    rw [executed]
    omega
  have counted := (middle.counts_elapsing cost).toNat inRange
  rw [executed] at counted
  -- The dispatch comes after the catching up, which must not have left the range either.
  obtain ⟨service, isService, settled⟩ :=
    (middle.elapsing cost).counts_settling
  have serviceBound : service ≤ 20 := by
    rcases isService with none | one
    · omega
    · omega
  have total := settled.toNat (by omega)
  have elapsed :=
    (locked.moves moves).elapsing inRange (by omega)
  exact (elapsed.serving (by omega)).transferring

end Execution

/-- A step keeps the lock as long as the count that it ends with is within half its range. -/
theorem Action.step_locked
    {earlier : List Event}
    {start : Execution}
    (locked : start.Locked earlier)
    (bounded : start.cpu.cycles.toNat < 2 ^ 63) :
    Ensures step start
      (fun _ final =>
        final.cpu.cycles.toNat < 2 ^ 63 → final.Locked earlier)
      (fun _ final =>
        final.cpu.cycles.toNat < 2 ^ 63 → final.Locked earlier) := by
  rw [ensures_step]
  refine (executeOrIdle_moving start).mono ?_ ?_
  · rintro cost middle ⟨moves, isCost⟩
    have settled := locked.settling moves isCost bounded
    dsimp only
    split
    · exact settled
    · exact settled
  · intro fault final moves _
    exact locked.moves moves

namespace Session

/-- One execution further, a session is still locked to its history. -/
theorem Next.locked
    {earlier later : Session}
    (next : Next earlier later)
    (locked : earlier.machine.Locked earlier.history)
    (bounded : earlier.machine.cpu.cycles.toNat < 2 ^ 63)
    (laterBounded : later.machine.cpu.cycles.toNat < 2 ^ 63) :
    later.machine.Locked later.history := by
  have started : (Execution.start earlier.machine).Locked earlier.history :=
    locked
  cases next with
  | step =>
      exact (Action.step_locked started bounded).execution laterBounded
  | poke address value => exact locked.store address value
  | press pressed => exact locked.withBus rfl rfl rfl
  | request source => exact locked.withBus rfl rfl rfl
  | interrupt source =>
      have inRange : earlier.machine.cpu.cycles.toNat + 20 < 2 ^ 64 := by
        omega
      have offered := started.offering inRange source
      rw [← Machine.execution_interrupt] at offered
      exact offered
  | transfer =>
      have transferred := started.transferring
      rw [← Machine.execution_transfer] at transferred
      exact transferred

/-- No count that was left by an execution is beyond half the range of the clock. -/
def WithinClock (session : Session) : Prop :=
  ∀ execution ∈ session.past, execution.cpu.cycles.toNat < 2 ^ 63

/-- A session is within the clock if it was before and the count just left is, too. -/
theorem Next.withinClock_iff
    {earlier later : Session}
    (next : Next earlier later) :
    later.WithinClock ↔
      earlier.WithinClock ∧ later.machine.cpu.cycles.toNat < 2 ^ 63 := by
  obtain ⟨execution, grown, left⟩ := next.past_eq
  unfold WithinClock
  rw [grown, List.forall_mem_cons, ← left]
  exact And.comm

/-- A session that is within the clock was so at any time before. -/
theorem withinClock_of_later
    {earlier later : Session}
    (runs : Later earlier later)
    (within : later.WithinClock) :
    earlier.WithinClock := by
  induction runs with
  | refl => exact within
  | tail _ next inductionHypothesis =>
      exact inductionHypothesis (next.withinClock_iff.mp within).1

/-- What every execution within the clock preserves holds throughout a session. -/
theorem holds_of_later
    {holds : Session → Prop}
    {earlier later : Session}
    (initially : holds earlier)
    (preserved :
      ∀ {before after},
        Next before after →
          holds before →
          after.machine.cpu.cycles.toNat < 2 ^ 63 →
          holds after)
    (runs : Later earlier later)
    (within : later.WithinClock) :
    holds later := by
  induction runs with
  | refl => exact initially
  | tail _ next inductionHypothesis =>
      obtain ⟨withinBefore, bounded⟩ := next.withinClock_iff.mp within
      exact preserved next (inductionHypothesis withinBefore) bounded

/-- No execution counts more cycles than the costliest step. -/
theorem Next.counts
    {earlier later : Session}
    (next : Next earlier later) :
    ∃ cycles, cycles ≤ 44 ∧
      (Execution.start earlier.machine).Counts cycles
        (.start later.machine) := by
  let start := Execution.start earlier.machine
  let atMost (final : Execution) : Prop :=
    ∃ cycles, cycles ≤ 44 ∧ start.Counts cycles final
  cases next with
  | step =>
      have counted :
          Action.Ensures .step start (fun _ => atMost) (fun _ => atMost) := by
        refine (Action.step_counts start).mono ?_ ?_
        · rintro cost final ⟨cycles, ⟨-, -, bound⟩, counts, -⟩
          exact ⟨cycles, bound, counts⟩
        · rintro fault final ⟨cycles, none | ⟨-, -, bound⟩, counts⟩
          · exact ⟨cycles, by omega, counts⟩
          · exact ⟨cycles, bound, counts⟩
      exact counted.execution
  | interrupt source =>
      obtain ⟨cycles, isService, counts⟩ := start.counts_offering source
      rw [← Machine.execution_interrupt] at counts
      refine ⟨cycles, ?_, counts⟩
      rcases isService with none | one
      · omega
      · omega
  | transfer =>
      have counts : start.Counts 0 start.transferring :=
        .of_same rfl
      rw [← Machine.execution_transfer] at counts
      exact ⟨0, by decide, counts⟩
  | _ => exact ⟨0, by decide, .of_same rfl⟩

/-- A session is within the clock as long as there is room for all its executions. -/
theorem withinClock_of_room
    {machine : Machine}
    {session : Session}
    (later : Later (start machine) session)
    (room :
      machine.cpu.cycles.toNat + 44 * session.past.length < 2 ^ 63) :
    session.WithinClock ∧
      session.machine.cpu.cycles.toNat ≤
        machine.cpu.cycles.toNat + 44 * session.past.length := by
  induction later with
  | refl =>
      constructor
      · intro execution isPast
        exact (List.not_mem_nil isPast).elim
      · exact Nat.le_refl _
  | @tail before after _ next inductionHypothesis =>
      obtain ⟨execution, grown, -⟩ := next.past_eq
      obtain ⟨cycles, bound, counts⟩ := next.counts
      have longer : after.past.length = before.past.length + 1 := by
        rw [grown, List.length_cons]
      obtain ⟨withinBefore, counted⟩ := inductionHypothesis (by omega)
      -- At 44 cycles each, the executions cannot have gone round the clock.
      have total :
          after.machine.cpu.cycles.toNat =
            before.machine.cpu.cycles.toNat + cycles :=
        counts.toNat
          (show before.machine.cpu.cycles.toNat + cycles < 2 ^ 64 by omega)
      exact ⟨next.withinClock_iff.mpr ⟨withinBefore, by omega⟩, by omega⟩

end Session

end Dmg
