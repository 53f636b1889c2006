import Dmg.Proofs.InstructionShortfall

namespace Dmg

/-!
# What a failing instruction leaves alone

An instruction that ends in a fault has stored nothing and has changed no register but
the program counter, the stack pointer and HL.  The program counter has moved over the
bytes that were fetched, and the two others by at most one, each in one situation only.
The step that the instruction belongs to ends there: the clock, a requested change of
the master enable, interrupts and the transfer have to wait.
-/

/-- The event is a fetch to which the bus answers. -/
def Event.isAnsweredFetch (bus : Bus) : Event → Bool
  | .fetch address => (bus.read address).isOk
  | _ => false

/-- The bytes of instructions that have been fetched, according to a journal. -/
def bytesFetched
    (bus : Bus)
    (journal : List Event) :
    Nat :=
  journal.countP (Event.isAnsweredFetch bus)

namespace Execution

variable {start final : Execution} {count : Nat}

theorem Fetched.bus (fetched : start.Fetched count final) :
    final.bus = start.bus := by
  induction fetched with
  | none => rfl
  | next before found inductionHypothesis => exact inductionHypothesis

/-- Fetching moves the program counter over the fetched bytes. -/
theorem Fetched.cpu (fetched : start.Fetched count final) :
    final.cpu =
      { start.cpu with pc := start.cpu.pc + UInt16.ofNat count } := by
  induction fetched with
  | none =>
      rw [show UInt16.ofNat 0 = 0 from rfl, UInt16.add_zero]
  | @next count middle value before found inductionHypothesis =>
      have moved :
          middle.fetching.cpu =
            { middle.cpu with pc := middle.cpu.pc + 1 } :=
        rfl
      rw [moved, inductionHypothesis, UInt16.ofNat_add,
        ← UInt16.add_assoc]
      rfl

/-- The journal counts the fetched bytes. -/
theorem Fetched.bytesFetched (fetched : start.Fetched count final) :
    bytesFetched start.bus final.journal =
      bytesFetched start.bus start.journal + count := by
  induction fetched with
  | none => rfl
  | @next count middle value before found inductionHypothesis =>
      have answered :
          Event.isAnsweredFetch start.bus (.fetch middle.cpu.pc) =
            true := by
        rw [← before.bus]
        exact congrArg Except.isOk found
      have counted :
          Dmg.bytesFetched start.bus middle.fetching.journal =
            Dmg.bytesFetched start.bus middle.journal + 1 :=
        List.countP_cons_of_pos answered
      rw [counted, inductionHypothesis, Nat.add_assoc]

end Execution

/-- An event that is no answered fetch is not counted as one. -/
theorem bytesFetched_cons
    {bus : Bus}
    {event : Event}
    (unanswered : event.isAnsweredFetch bus = false)
    (journal : List Event) :
    bytesFetched bus (event :: journal) = bytesFetched bus journal :=
  List.countP_cons_of_neg (by rw [unanswered]; decide)

/-- A fetch that meets a fault is not answered. -/
theorem isAnsweredFetch_of_error
    {bus : Bus}
    {address : UInt16}
    {fault : Fault}
    (missing : bus.read address = .error fault) :
    Event.isAnsweredFetch bus (.fetch address) = false :=
  congrArg Except.isOk missing

/--
From one execution to another, only the program counter, the stack pointer and HL may
have changed, the program counter by a number of bytes that the journal counts.
-/
structure Spares
    (limit : Nat)
    (start final : Execution) :
    Prop where
  bus : final.bus = start.bus
  cpu :
    final.cpu =
      { start.cpu with
        pc := final.cpu.pc
        sp := final.cpu.sp
        h := final.cpu.h
        l := final.cpu.l }
  fetched :
    ∃ count, count ≤ limit ∧
      final.cpu.pc = start.cpu.pc + UInt16.ofNat count ∧
      bytesFetched start.bus final.journal =
        bytesFetched start.bus start.journal + count

namespace Spares

variable {limit first second : Nat} {start middle final : Execution}

/-- Fetching spares the rest. -/
theorem of_fetched
    {count : Nat}
    (fetched : start.Fetched count final)
    (few : count ≤ limit) :
    Spares limit start final where
  bus := fetched.bus
  cpu := by
    rw [fetched.cpu]
  fetched := by
    refine ⟨count, few, ?_, fetched.bytesFetched⟩
    rw [fetched.cpu]

/-- To note an event that is no answered fetch spares everything. -/
theorem note
    (spares : Spares limit start final)
    {event : Event}
    (unanswered : event.isAnsweredFetch start.bus = false) :
    Spares limit start (final.noting event) where
  bus := spares.bus
  cpu := spares.cpu
  fetched := by
    obtain ⟨count, few, moved, counted⟩ := spares.fetched
    refine ⟨count, few, moved, ?_⟩
    rw [Execution.noting_journal, bytesFetched_cons unanswered]
    exact counted

/-- To move the stack pointer and HL spares the rest. -/
theorem withPointers
    (spares : Spares limit start final)
    (sp : UInt16)
    (h l : UInt8) :
    Spares limit start
      (final.withCpu { final.cpu with sp := sp, h := h, l := l }) where
  bus := spares.bus
  cpu := by
    rw [Execution.withCpu_cpu, spares.cpu]
  fetched := spares.fetched

/-- What spares the rest twice spares it on the whole. -/
theorem trans
    (toMiddle : Spares first start middle)
    (toFinal : Spares second middle final) :
    Spares (first + second) start final where
  bus := toFinal.bus.trans toMiddle.bus
  cpu := by
    rw [toFinal.cpu, toMiddle.cpu]
  fetched := by
    obtain ⟨count, few, moved, counted⟩ := toMiddle.fetched
    obtain ⟨count', few', moved', counted'⟩ := toFinal.fetched
    rw [toMiddle.bus] at counted'
    refine ⟨count + count', by omega, ?_, by omega⟩
    rw [moved', moved, UInt16.ofNat_add, UInt16.add_assoc]

end Spares

theorem Spares.refl (start : Execution) :
    Spares 0 start start :=
  .of_fetched .none (Nat.le_refl 0)

theorem Spares.mono
    {limit greater : Nat}
    {start final : Execution}
    (spares : Spares limit start final)
    (within : limit ≤ greater) :
    Spares greater start final := by
  obtain ⟨count, few, moved⟩ := spares.fetched
  exact ⟨spares.bus, spares.cpu, count, Nat.le_trans few within, moved⟩

namespace Shortfall

variable
  {instruction : Instruction}
  {start final : Execution}
  {fault : Fault}

/-- An instruction that falls short spares all but the three pointers. -/
theorem spares (short : Shortfall instruction start fault final) :
    Spares 2 start final := by
  cases short with
  | fetch fetched few missing =>
      rw [fetched.bus] at missing
      exact (Spares.of_fetched fetched (by omega)).note
        (isAnsweredFetch_of_error missing)
  | data fetched few missing =>
      exact (Spares.of_fetched fetched few).note rfl
  | @pointer move steps missing =>
      let stepped := start.cpu.setHl (move start.cpu.hl)
      have moved :=
        ((Spares.refl start).mono (Nat.zero_le 2)).withPointers
          start.cpu.sp stepped.h stepped.l
      exact moved.note rfl
  | stack pops found missing =>
      have noted :=
        ((Spares.refl start).mono (Nat.zero_le 2)).note
          (show Event.isAnsweredFetch start.bus (.read start.cpu.sp) =
              false
            from rfl)
      have moved :=
        noted.withPointers (start.cpu.sp + 1) start.cpu.h start.cpu.l
      exact moved.note rfl

/-- The stack pointer moves only if the second byte of a word cannot be taken. -/
theorem sp (short : Shortfall instruction start fault final) :
    final.cpu.sp = start.cpu.sp ∨
      final.cpu.sp = start.cpu.sp + 1 ∧
        instruction.Pops start.cpu.flags ∧
        (∃ low, start.bus.read start.cpu.sp = .ok low) ∧
        start.bus.read (start.cpu.sp + 1) = .error fault := by
  cases short with
  | fetch fetched few missing =>
      left
      rw [Execution.noting_cpu, fetched.cpu]
  | data fetched few missing =>
      left
      rw [Execution.noting_cpu, fetched.cpu]
  | pointer steps missing => exact .inl rfl
  | stack pops found missing =>
      exact .inr ⟨rfl, pops, ⟨_, found⟩, missing⟩

/-- HL moves only if an instruction that steps it cannot read its data. -/
theorem hl (short : Shortfall instruction start fault final) :
    final.cpu.hl = start.cpu.hl ∨
      ∃ move, instruction.Steps move ∧
        final.cpu.hl = move start.cpu.hl ∧
        start.bus.read start.cpu.hl = .error fault := by
  cases short with
  | fetch fetched few missing =>
      left
      rw [Execution.noting_cpu, fetched.cpu]
      rfl
  | data fetched few missing =>
      left
      rw [Execution.noting_cpu, fetched.cpu]
      rfl
  | @pointer move steps missing =>
      have moved :=
        Cpu.getPair_setPair_same .hl (move start.cpu.hl) start.cpu
      exact .inr ⟨move, steps, moved, missing⟩
  | stack pops found missing => exact .inl rfl

end Shortfall

/-- An execution in which an instruction has begun spares all but the program counter. -/
theorem Spares.beginning
    {start : Execution}
    {opcode : UInt8}
    (found : start.bus.read start.cpu.pc = .ok opcode) :
    Spares 1 start (start.beginning opcode) :=
  (Spares.of_fetched (.next .none found) (Nat.le_refl 1)).note rfl

/-- A failing instruction spares all but the three pointers. -/
theorem Failure.spares
    {start final : Execution}
    {fault : Fault}
    (failure : Failure start fault final) :
    Spares 3 start final := by
  cases failure with
  | unreadable missing =>
      exact ((Spares.refl start).mono (by decide)).note
        (isAnsweredFetch_of_error missing)
  | illegal found undecoded =>
      exact (Spares.beginning found).mono (by decide)
  | short found decoded shortfall =>
      exact (Spares.beginning found).trans shortfall.spares

/-- The byte at the program counter can be read and is the opcode of the instruction. -/
def Machine.Begins
    (machine : Machine)
    (instruction : Instruction) :
    Prop :=
  ∃ opcode,
    machine.bus.read machine.cpu.pc = .ok opcode ∧
      Instruction.ofOpcode? opcode = some instruction

namespace Failure

variable
  {machine : Machine}
  {fault : Fault}
  {final : Execution}

/-- The stack pointer moves only if an instruction cannot take the second byte of a word. -/
theorem sp (failure : Failure (.start machine) fault final) :
    final.cpu.sp = machine.cpu.sp ∨
      final.cpu.sp = machine.cpu.sp + 1 ∧
        (∃ instruction, machine.Begins instruction ∧
          instruction.Pops machine.cpu.flags) ∧
        (∃ low, machine.bus.read machine.cpu.sp = .ok low) ∧
        machine.bus.read (machine.cpu.sp + 1) = .error fault := by
  cases failure with
  | unreadable missing => exact .inl rfl
  | illegal found undecoded => exact .inl rfl
  | short found decoded shortfall =>
      rcases shortfall.sp with same | ⟨moved, pops, low, missing⟩
      · exact .inl same
      · exact .inr ⟨moved, ⟨_, ⟨_, found, decoded⟩, pops⟩, low, missing⟩

/-- HL moves only if a load of the accumulator that steps it cannot read its data. -/
theorem hl (failure : Failure (.start machine) fault final) :
    final.cpu.hl = machine.cpu.hl ∨
      (final.cpu.hl = machine.cpu.hl + 1 ∧
            machine.Begins (.regular (.loadIndirect .hlIncrement true)) ∨
          final.cpu.hl = machine.cpu.hl - 1 ∧
            machine.Begins (.regular (.loadIndirect .hlDecrement true))) ∧
        machine.bus.read machine.cpu.hl = .error fault := by
  cases failure with
  | unreadable missing => exact .inl rfl
  | illegal found undecoded => exact .inl rfl
  | short found decoded shortfall =>
      rcases shortfall.hl with same | ⟨move, steps, moved, missing⟩
      · exact .inl same
      · right
        cases steps with
        | increment => exact ⟨.inl ⟨moved, _, found, decoded⟩, missing⟩
        | decrement => exact ⟨.inr ⟨moved, _, found, decoded⟩, missing⟩

end Failure

namespace Machine

variable
  {machine : Machine}
  {fault : Fault}
  {execution : Execution}

/-- A processor that is awake executes the next instruction. -/
theorem executeOrIdle_of_awake (awake : machine.cpu.halted = false) :
    machine.perform .executeOrIdle = machine.perform .executeNext := by
  unfold perform Action.executeOrIdle
  rw [EStateM.run_bind]
  change
    EStateM.run
        (if machine.cpu.halted = true then pure Action.idleCost
          else Action.executeNext)
        (.start machine) = _
  rw [if_neg (Bool.eq_false_iff.mp awake)]

/-- A step that executes an instruction ends where the instruction fails. -/
theorem step_of_executeNext_error
    (running : machine.cpu.halted = false)
    (failed : machine.perform .executeNext = .error fault execution) :
    machine.step = .error fault execution := by
  -- A fault passes through every bind of the step, so nothing after it is carried out.
  have executed :
      Action.executeOrIdle.run (.start machine) =
        .error fault execution :=
    (executeOrIdle_of_awake running).trans failed
  have advanced :
      Action.advance.run (.start machine) = .error fault execution := by
    unfold Action.advance
    rw [EStateM.run_bind, executed]
  unfold step perform Action.step
  rw [EStateM.run_bind]
  change EStateM.run (Action.advance >>= _) (.start machine) = _
  rw [EStateM.run_bind, advanced]

/--
An instruction that ends in a fault leaves the bus as it was, and every register but the
program counter, the stack pointer and HL.  The program counter has moved over the bytes
that were fetched, at most three.  The stack pointer has moved at most over the first
byte of a word that a return or a pop could not take whole; HL has moved at most by one,
and only where a load that steps it could not read its data.  The step ends with it.
-/
theorem executeNext_error_spares
    (failed : machine.perform .executeNext = .error fault execution) :
    execution.bus = machine.bus ∧
      execution.cpu =
        { machine.cpu with
          pc := execution.cpu.pc
          sp := execution.cpu.sp
          h := execution.cpu.h
          l := execution.cpu.l } ∧
      (bytesFetched machine.bus execution.journal ≤ 3 ∧
        execution.cpu.pc =
          machine.cpu.pc +
            UInt16.ofNat (bytesFetched machine.bus execution.journal)) ∧
      (execution.cpu.sp = machine.cpu.sp ∨
        execution.cpu.sp = machine.cpu.sp + 1 ∧
          (∃ instruction, machine.Begins instruction ∧
            instruction.Pops machine.cpu.flags) ∧
          (∃ low, machine.bus.read machine.cpu.sp = .ok low) ∧
          machine.bus.read (machine.cpu.sp + 1) = .error fault) ∧
      (execution.cpu.hl = machine.cpu.hl ∨
        (execution.cpu.hl = machine.cpu.hl + 1 ∧
              machine.Begins
                (.regular (.loadIndirect .hlIncrement true)) ∨
            execution.cpu.hl = machine.cpu.hl - 1 ∧
              machine.Begins
                (.regular (.loadIndirect .hlDecrement true))) ∧
          machine.bus.read machine.cpu.hl = .error fault) ∧
      (machine.cpu.halted = false →
        machine.step = .error fault execution) := by
  have failure : Failure (.start machine) fault execution :=
    (Action.executeNext_failure (.start machine)).of_error failed
  have spares := failure.spares
  obtain ⟨count, few, moved, counted⟩ := spares.fetched
  -- The journal started empty, so it counts the bytes of this instruction only.
  have fetched : bytesFetched machine.bus execution.journal = count :=
    counted.trans (Nat.zero_add count)
  refine ⟨spares.bus, spares.cpu, ⟨?_, ?_⟩, failure.sp, failure.hl, ?_⟩
  · rw [fetched]
    exact few
  · rw [fetched]
    exact moved
  · intro running
    exact step_of_executeNext_error running failed

/-- A machine whose next instruction, at the last address, loads from a sound register. -/
def atSoundLoad : Machine where
  cpu := { Cpu.powerOn with pc := 0xFFFF, h := 0xFF, l := 0x10 }
  bus := { Bus.powerOn .blank with interruptEnable := 0x2A }

/-- The load fails with HL moved on, and nothing but the two pointers has changed. -/
theorem executeNext_error_spares_atSoundLoad :
    ∃ execution,
      atSoundLoad.perform .executeNext =
          .error (.unimplementedRegister 0xFF10) execution ∧
        execution.cpu.pc = 0 ∧
        execution.cpu.hl = 0xFF11 ∧
        execution.bus = atSoundLoad.bus ∧
        atSoundLoad.step =
          .error (.unimplementedRegister 0xFF10) execution := by
  obtain ⟨sameBus, -, -, -, -, stepFails⟩ :=
    @executeNext_error_spares atSoundLoad
      (.unimplementedRegister 0xFF10) _ rfl
  exact ⟨_, rfl, rfl, rfl, sameBus, stepFails rfl⟩

end Machine

end Dmg
