import Dmg.Proofs.InstructionEffect
import Dmg.Proofs.PushedWord

namespace Dmg

/-!
# The length and the cost of every instruction

One rule accounts for the cost of all instructions but one: four cycles for each byte of
the instruction, for each byte of data that it reads or writes, and for each delay inside
the processor.  The program goes on behind the instruction, unless that is a jump, a call
or a return which is taken.
-/

/-- The ways in which the processor uses the bus. -/
inductive Access where
  | fetch
  | read
  | write
  deriving Repr, DecidableEq

/-- The use of the bus that an event records. -/
def Event.access? : Event → Option Access
  | .fetch _ => some .fetch
  | .read _ => some .read
  | .write _ _ => some .write
  | _ => none

/-- The uses of the bus so far, the latest first. -/
def Execution.accesses (execution : Execution) : List Access :=
  execution.journal.filterMap Event.access?

/-- Every use of the bus is of one of the three kinds. -/
theorem Access.length_eq_counts (accesses : List Access) :
    accesses.length =
      accesses.count .fetch + accesses.count .read +
        accesses.count .write := by
  induction accesses with
  | nil => rfl
  | cons access rest inductionHypothesis =>
      cases access <;> simp [inductionHypothesis] <;> omega

/-- Where a program goes on after an instruction. -/
inductive Successor where
  /-- Behind the instruction. -/
  | next
  /-- By a signed displacement from there. -/
  | displaced (displacement : UInt8)
  /-- At an address of its own. -/
  | target (address : UInt16)
  deriving Repr, DecidableEq

/-- The address of a successor, given the address behind the instruction. -/
def Successor.address (behind : UInt16) : Successor → UInt16
  | .next => behind
  | .displaced displacement => behind + Word.ofDisplacement displacement
  | .target address => address

/-- To add a displacement to an address is to add a signed number, modulo 2¹⁶. -/
theorem Word.toNat_add_ofDisplacement
    (base : UInt16)
    (displacement : UInt8) :
    ((base + ofDisplacement displacement).toNat : Int) =
      (base.toNat + displacement.toInt8.toInt) % 0x10000 := by
  have everyByte :
      ∀ byte : Fin 256,
        ((ofDisplacement (.ofFin byte)).toNat : Int) =
          (UInt8.ofFin byte).toInt8.toInt % 0x10000 := by
    decide +kernel
  have widened :
      ((ofDisplacement displacement).toNat : Int) =
        displacement.toInt8.toInt % 0x10000 :=
    everyByte displacement.toFin
  rw [UInt16.toNat_add]
  omega

namespace Regular

/-- The number of bytes of a regular instruction. -/
def length : Regular → Nat
  | .loadPairImmediate _ => 3
  | .loadImmediate _ | .aluImmediate _ => 2
  | _ => 1

/-- The number of delays inside the processor. -/
def delay : Regular → Nat
  | .addHl _ | .incrementPair _ | .decrementPair _ | .push _ | .restart _ => 1
  | _ => 0

/-- Where a program goes on after a regular instruction. -/
def successor : Regular → Successor
  | .restart vector => .target vector
  | _ => .next

end Regular

namespace Irregular

/-- The number of bytes of an irregular instruction. -/
def length : Irregular → Nat
  | .storeSp | .jumpIf _ | .jump | .callIf _ | .call | .storeDirect
  | .loadDirect =>
      3
  | .stop | .jumpRelative | .jumpRelativeIf _ | .prefixed | .storeHigh
  | .addSp | .loadHigh | .loadHlSp =>
      2
  | _ => 1

/-- The number of delays inside the processor; a branch that is taken has one more. -/
def delay (flags : Flags) : Irregular → Nat
  | .jumpRelative | .jump | .call | .returnAlways | .returnEnable
  | .loadHlSp | .loadSpHl =>
      1
  | .jumpRelativeIf condition | .jumpIf condition | .callIf condition =>
      if condition.holds flags then 1 else 0
  | .returnIf condition => if condition.holds flags then 2 else 1
  | .addSp => 2
  | _ => 0

/-- Where a program goes on after an irregular instruction. -/
def successor (start : Machine) : Irregular → Successor
  | .jumpRelative => .displaced start.byteAhead
  | .jumpRelativeIf condition =>
      if condition.holds start.cpu.flags then
        .displaced start.byteAhead
      else
        .next
  | .jump | .call => .target start.wordAhead
  | .jumpIf condition | .callIf condition =>
      if condition.holds start.cpu.flags then
        .target start.wordAhead
      else
        .next
  | .jumpHl => .target start.cpu.hl
  | .returnAlways | .returnEnable => .target start.wordOnStack
  | .returnIf condition =>
      if condition.holds start.cpu.flags then
        .target start.wordOnStack
      else
        .next
  | _ => .next

end Irregular

namespace Instruction

/-- The number of bytes of an instruction. -/
def length : Instruction → Nat
  | .regular instruction => instruction.length
  | .irregular instruction => instruction.length

/-- The number of delays inside the processor. -/
def delay (flags : Flags) : Instruction → Nat
  | .regular instruction => instruction.delay
  | .irregular instruction => instruction.delay flags

/-- Where a program goes on after an instruction whose opcode has been fetched. -/
def successor (start : Machine) : Instruction → Successor
  | .regular instruction => instruction.successor
  | .irregular instruction => instruction.successor start

/-- The instruction is a call that is taken if the flags are such. -/
def Calls (flags : Flags) : Instruction → Prop
  | .irregular .call => True
  | .irregular (.callIf condition) => condition.holds flags = true
  | .regular (.restart _) => True
  | _ => False

end Instruction

/--
Since the start, with the opcode fetched already, the bus has been used as often as fits
an instruction of this length, delay and cost.
-/
def Execution.Accounts
    (length delay cost : Nat)
    (start final : Execution) :
    Prop :=
  ∃ made : List Access,
    final.accesses = made ++ start.accesses ∧
      made.count .fetch + 1 = length ∧
      cost = 4 * (made.length + 1 + delay)

/-- The place in the grid for a load from memory to memory is taken by another opcode. -/
theorem Instruction.ofOpcode?_ne_load_memory (opcode : Opcode) :
    ofOpcode? opcode ≠ some (.regular (.load .memory .memory)) := by
  have everyByte :
      ∀ byte : Fin 256,
        ofOpcode? (.ofFin byte) ≠
          some (.regular (.load .memory .memory)) := by
    decide +kernel
  exact everyByte opcode.toFin

/-- The uses of the bus by a regular instruction account for its cost. -/
theorem Regular.finish_accounts
    {instruction : Regular}
    (inMap : instruction ≠ .load .memory .memory)
    (start : Execution) :
    Execution.Accounts instruction.length instruction.delay instruction.cost
      start (instruction.finish start) := by
  cases instruction with
  | loadPairImmediate pair => exact ⟨[.fetch, .fetch], rfl, rfl, rfl⟩
  | addHl pair => exact ⟨[], rfl, rfl, rfl⟩
  | loadIndirect pointer toAccumulator =>
      cases toAccumulator with
      | false => exact ⟨[.write], rfl, rfl, rfl⟩
      | true => exact ⟨[.read], rfl, rfl, rfl⟩
  | incrementPair pair => exact ⟨[], rfl, rfl, rfl⟩
  | decrementPair pair => exact ⟨[], rfl, rfl, rfl⟩
  | increment operand =>
      cases operand with
      | register name => exact ⟨[], rfl, rfl, rfl⟩
      | memory => exact ⟨[.write, .read], rfl, rfl, rfl⟩
  | decrement operand =>
      cases operand with
      | register name => exact ⟨[], rfl, rfl, rfl⟩
      | memory => exact ⟨[.write, .read], rfl, rfl, rfl⟩
  | loadImmediate operand =>
      cases operand with
      | register name => exact ⟨[.fetch], rfl, rfl, rfl⟩
      | memory => exact ⟨[.write, .fetch], rfl, rfl, rfl⟩
  | load destination source =>
      cases destination with
      | register name =>
          cases source with
          | register other => exact ⟨[], rfl, rfl, rfl⟩
          | memory => exact ⟨[.read], rfl, rfl, rfl⟩
      | memory =>
          cases source with
          | register other => exact ⟨[.write], rfl, rfl, rfl⟩
          | memory => exact absurd rfl inMap
  | alu operation operand =>
      cases operand with
      | register name => exact ⟨[], rfl, rfl, rfl⟩
      | memory => exact ⟨[.read], rfl, rfl, rfl⟩
  | aluImmediate operation => exact ⟨[.fetch], rfl, rfl, rfl⟩
  | pop pair => exact ⟨[.read, .read], rfl, rfl, rfl⟩
  | push pair => exact ⟨[.write, .write], rfl, rfl, rfl⟩
  | restart vector => exact ⟨[.write, .write], rfl, rfl, rfl⟩

/-- A prefixed instruction has two bytes, of which the second follows the start. -/
theorem Prefixed.finish_accounts
    (instruction : Prefixed)
    (start : Execution) :
    Execution.Accounts 2 0 instruction.cost start
      (instruction.finish start.fetching) := by
  cases instruction with
  | rotate rotation operand =>
      cases operand with
      | register name => exact ⟨[.fetch], rfl, rfl, rfl⟩
      | memory => exact ⟨[.write, .read, .fetch], rfl, rfl, rfl⟩
  | bit index operand =>
      cases operand with
      | register name => exact ⟨[.fetch], rfl, rfl, rfl⟩
      | memory => exact ⟨[.read, .fetch], rfl, rfl, rfl⟩
  | reset index operand =>
      cases operand with
      | register name => exact ⟨[.fetch], rfl, rfl, rfl⟩
      | memory => exact ⟨[.write, .read, .fetch], rfl, rfl, rfl⟩
  | set index operand =>
      cases operand with
      | register name => exact ⟨[.fetch], rfl, rfl, rfl⟩
      | memory => exact ⟨[.write, .read, .fetch], rfl, rfl, rfl⟩

/-- An account for either outcome of a test is one for the outcome that the flags decide. -/
theorem Execution.Accounts.afterTest
    {length trueDelay falseDelay trueCost falseCost : Nat}
    {start trueFinal falseFinal : Execution}
    (condition : Condition)
    (flags : Flags)
    (whenTrue : Accounts length trueDelay trueCost start trueFinal)
    (whenFalse : Accounts length falseDelay falseCost start falseFinal) :
    Accounts length
      (if condition.holds flags then trueDelay else falseDelay)
      (if condition.holds flags then trueCost else falseCost)
      start
      (if condition.holds flags then trueFinal else falseFinal) := by
  split
  · exact whenTrue
  · exact whenFalse

/-- The uses of the bus by an irregular instruction account for its cost. -/
theorem Irregular.finish_accounts
    {instruction : Irregular}
    (goesOn : instruction ≠ .stop)
    (start : Execution) :
    Execution.Accounts instruction.length
      (instruction.delay start.cpu.flags)
      (instruction.cost start.toMachine) start
      (instruction.finish start) := by
  cases instruction with
  | stop => exact absurd rfl goesOn
  | prefixed => exact start.prefixedAhead.finish_accounts start
  | storeSp => exact ⟨[.write, .write, .fetch, .fetch], rfl, rfl, rfl⟩
  | jumpRelativeIf condition =>
      exact .afterTest condition _
        ⟨[.fetch], rfl, rfl, rfl⟩ ⟨[.fetch], rfl, rfl, rfl⟩
  | returnIf condition =>
      exact .afterTest condition _
        ⟨[.read, .read], rfl, rfl, rfl⟩ ⟨[], rfl, rfl, rfl⟩
  | jumpIf condition =>
      exact .afterTest condition _
        ⟨[.fetch, .fetch], rfl, rfl, rfl⟩ ⟨[.fetch, .fetch], rfl, rfl, rfl⟩
  | callIf condition =>
      exact .afterTest condition _
        ⟨[.write, .write, .fetch, .fetch], rfl, rfl, rfl⟩
        ⟨[.fetch, .fetch], rfl, rfl, rfl⟩
  | call => exact ⟨[.write, .write, .fetch, .fetch], rfl, rfl, rfl⟩
  | jump => exact ⟨[.fetch, .fetch], rfl, rfl, rfl⟩
  | storeDirect => exact ⟨[.write, .fetch, .fetch], rfl, rfl, rfl⟩
  | loadDirect => exact ⟨[.read, .fetch, .fetch], rfl, rfl, rfl⟩
  | storeHigh => exact ⟨[.write, .fetch], rfl, rfl, rfl⟩
  | loadHigh => exact ⟨[.read, .fetch], rfl, rfl, rfl⟩
  | jumpRelative => exact ⟨[.fetch], rfl, rfl, rfl⟩
  | addSp => exact ⟨[.fetch], rfl, rfl, rfl⟩
  | loadHlSp => exact ⟨[.fetch], rfl, rfl, rfl⟩
  | returnAlways => exact ⟨[.read, .read], rfl, rfl, rfl⟩
  | returnEnable => exact ⟨[.read, .read], rfl, rfl, rfl⟩
  | storeHighC => exact ⟨[.write], rfl, rfl, rfl⟩
  | loadHighC => exact ⟨[.read], rfl, rfl, rfl⟩
  -- The others have one byte and no data.
  | _ => exact ⟨[], rfl, rfl, rfl⟩

/-- The uses of the bus by an instruction of the opcode map account for its cost. -/
theorem Instruction.finish_accounts
    {opcode : Opcode}
    {instruction : Instruction}
    (decoded : ofOpcode? opcode = some instruction)
    (goesOn : instruction ≠ .irregular .stop)
    (start : Execution) :
    Execution.Accounts instruction.length
      (instruction.delay start.cpu.flags)
      (instruction.cost start.toMachine) start
      (instruction.finish start) := by
  cases instruction with
  | regular regular =>
      apply regular.finish_accounts
      rintro rfl
      exact ofOpcode?_ne_load_memory opcode decoded
  | irregular irregular =>
      apply irregular.finish_accounts
      rintro rfl
      exact goesOn rfl

section ProgramCounter

@[simp] theorem Cpu.set_pc
    (register : Register)
    (value : UInt8)
    (cpu : Cpu) :
    (cpu.set register value).pc = cpu.pc := by
  cases register <;> rfl

@[simp] theorem Cpu.setPair_pc
    (pair : Pair)
    (value : UInt16)
    (cpu : Cpu) :
    (cpu.setPair pair value).pc = cpu.pc := by
  cases pair <;> rfl

@[simp] theorem Cpu.setStackPair_pc
    (pair : StackPair)
    (value : UInt16)
    (cpu : Cpu) :
    (cpu.setStackPair pair value).pc = cpu.pc := by
  cases pair <;> rfl

@[simp] theorem Cpu.operating_pc
    (operation : AluOp)
    (value : UInt8)
    (cpu : Cpu) :
    (cpu.operating operation value).pc = cpu.pc := by
  cases operation <;> rfl

@[simp] theorem Pointer.follow_pc
    (pointer : Pointer)
    (cpu : Cpu) :
    (pointer.follow cpu).pc = cpu.pc := by
  cases pointer <;> rfl

@[simp] theorem Execution.reading_cpu
    (execution : Execution)
    (operand : Operand) :
    (execution.reading operand).cpu = execution.cpu := by
  cases operand <;> rfl

@[simp] theorem Execution.assigning_pc
    (execution : Execution)
    (operand : Operand)
    (value : UInt8) :
    (execution.assigning operand value).cpu.pc = execution.cpu.pc := by
  cases operand with
  | register name => exact Cpu.set_pc name value execution.cpu
  | memory => rfl

variable {start : Execution} {address : UInt16}

/-- The address behind so many bytes of an instruction, once its opcode is fetched. -/
theorem behind_bytes (behindOpcode : start.cpu.pc = address + 1) :
    start.fetching.cpu.pc = address + 2 ∧
      start.fetching.fetching.cpu.pc = address + 3 := by
  constructor
  · change start.cpu.pc + 1 = address + 2
    rw [behindOpcode, UInt16.add_assoc]
    rfl
  · change start.cpu.pc + 1 + 1 = address + 3
    rw [behindOpcode, UInt16.add_assoc, UInt16.add_assoc]
    rfl

/-- A regular instruction goes on behind its bytes, or at the address that it calls. -/
theorem Regular.finish_pc
    (instruction : Regular)
    (behindOpcode : start.cpu.pc = address + 1) :
    (instruction.finish start).cpu.pc =
      instruction.successor.address
        (address + .ofNat instruction.length) := by
  obtain ⟨behindTwo, behindThree⟩ := behind_bytes behindOpcode
  have afterReading (operand : Operand) :
      (start.reading operand).cpu.pc = address + 1 := by
    rw [Execution.reading_cpu]
    exact behindOpcode
  cases instruction with
  | loadPairImmediate pair => exact (Cpu.setPair_pc _ _ _).trans behindThree
  | addHl pair => exact behindOpcode
  | loadIndirect pointer toAccumulator =>
      cases toAccumulator with
      | false => exact (Pointer.follow_pc _ _).trans behindOpcode
      | true => exact (Pointer.follow_pc _ _).trans behindOpcode
  | incrementPair pair => exact (Cpu.setPair_pc _ _ _).trans behindOpcode
  | decrementPair pair => exact (Cpu.setPair_pc _ _ _).trans behindOpcode
  | increment operand =>
      exact (Execution.assigning_pc _ _ _).trans (afterReading operand)
  | decrement operand =>
      exact (Execution.assigning_pc _ _ _).trans (afterReading operand)
  | loadImmediate operand =>
      exact (Execution.assigning_pc _ _ _).trans behindTwo
  | load destination source =>
      exact (Execution.assigning_pc _ _ _).trans (afterReading source)
  | alu operation operand =>
      exact (Cpu.operating_pc _ _ _).trans (afterReading operand)
  | aluImmediate operation =>
      exact (Cpu.operating_pc _ _ _).trans behindTwo
  | pop pair => exact (Cpu.setStackPair_pc _ _ _).trans behindOpcode
  | push pair => exact behindOpcode
  | restart vector => rfl

/-- A prefixed instruction leaves the program counter where it finds it. -/
theorem Prefixed.finish_pc
    (instruction : Prefixed)
    (start : Execution) :
    (instruction.finish start).cpu.pc = start.cpu.pc := by
  have afterReading (operand : Operand) :
      (start.reading operand).cpu.pc = start.cpu.pc := by
    rw [Execution.reading_cpu]
  cases instruction with
  | rotate rotation operand =>
      exact (Execution.assigning_pc _ _ _).trans (afterReading operand)
  | bit index operand => exact afterReading operand
  | reset index operand =>
      exact (Execution.assigning_pc _ _ _).trans (afterReading operand)
  | set index operand =>
      exact (Execution.assigning_pc _ _ _).trans (afterReading operand)

/-- A branch goes on where its test decides. -/
theorem pc_afterTest
    {whenTrue whenFalse : Execution}
    {taken : Successor}
    {behind : UInt16}
    (condition : Condition)
    (flags : Flags)
    (trueGoes : whenTrue.cpu.pc = taken.address behind)
    (falseGoes : whenFalse.cpu.pc = behind) :
    (if condition.holds flags then whenTrue else whenFalse).cpu.pc =
      (if condition.holds flags then taken else .next).address behind := by
  split
  · exact trueGoes
  · exact falseGoes

/-- An irregular instruction goes on behind its bytes, or where it jumps, calls or returns. -/
theorem Irregular.finish_pc
    (instruction : Irregular)
    (behindOpcode : start.cpu.pc = address + 1) :
    (instruction.finish start).cpu.pc =
      (instruction.successor start.toMachine).address
        (address + .ofNat instruction.length) := by
  obtain ⟨behindTwo, behindThree⟩ := behind_bytes behindOpcode
  have displaced :
      start.cpu.pc + 1 + Word.ofDisplacement start.byteAhead =
        address + 2 + Word.ofDisplacement start.byteAhead :=
    congrArg (· + Word.ofDisplacement start.byteAhead) behindTwo
  cases instruction with
  | jumpRelative => exact displaced
  | jumpRelativeIf condition =>
      exact pc_afterTest condition _ displaced behindTwo
  | returnIf condition => exact pc_afterTest condition _ rfl behindOpcode
  | jumpIf condition => exact pc_afterTest condition _ rfl behindThree
  | callIf condition => exact pc_afterTest condition _ rfl behindThree
  | jump | call | jumpHl | returnAlways | returnEnable => rfl
  | prefixed => exact (Prefixed.finish_pc _ _).trans behindTwo
  | storeSp | storeDirect | loadDirect => exact behindThree
  | stop | storeHigh | addSp | loadHigh | loadHlSp => exact behindTwo
  | _ => exact behindOpcode

theorem Instruction.finish_pc
    (instruction : Instruction)
    (behindOpcode : start.cpu.pc = address + 1) :
    (instruction.finish start).cpu.pc =
      (instruction.successor start.toMachine).address
        (address + .ofNat instruction.length) := by
  cases instruction with
  | regular regular => exact regular.finish_pc behindOpcode
  | irregular irregular => exact irregular.finish_pc behindOpcode

end ProgramCounter

/-- The bus after a call is that after a push of the program counter. -/
theorem Execution.calling_leaves
    (execution : Execution)
    (address : UInt16) :
    (execution.calling address).cpu.sp = execution.cpu.sp - 2 ∧
      (execution.calling address).bus =
        execution.bus.pushed execution.cpu.sp execution.cpu.pc := by
  have lower : execution.cpu.sp - 1 - 1 = execution.cpu.sp - 2 := by
    grind
  unfold Bus.pushed
  rw [← lower]
  exact ⟨rfl, rfl⟩

/-- A call that is taken pushes the address behind it. -/
theorem Instruction.finish_of_calls
    {instruction : Instruction}
    (start : Execution)
    {address : UInt16}
    (calls : instruction.Calls start.cpu.flags)
    (behindOpcode : start.cpu.pc = address + 1) :
    (instruction.finish start).cpu.sp = start.cpu.sp - 2 ∧
      (instruction.finish start).bus =
        start.bus.pushed start.cpu.sp
          (address + .ofNat instruction.length) := by
  obtain ⟨-, behindThree⟩ := behind_bytes behindOpcode
  have calledBehindWord :
      (start.fetching.fetching.calling start.wordAhead).cpu.sp =
          start.cpu.sp - 2 ∧
        (start.fetching.fetching.calling start.wordAhead).bus =
          start.bus.pushed start.cpu.sp (address + 3) := by
    rw [← behindThree]
    exact Execution.calling_leaves _ _
  unfold Calls at calls
  split at calls
  · exact calledBehindWord
  · rename_i condition
    have taken :
        Instruction.finish start (.irregular (.callIf condition)) =
          start.fetching.fetching.calling start.wordAhead :=
      if_pos calls
    rw [taken]
    exact calledBehindWord
  · have called := Execution.calling_leaves start
    rw [behindOpcode] at called
    exact called _
  · exact calls.elim

/-- Only the relative jumps, of two bytes, go on by a displacement. -/
theorem Instruction.length_of_displaced
    {instruction : Instruction}
    {start : Machine}
    {displacement : UInt8}
    (displaces : instruction.successor start = .displaced displacement) :
    instruction.length = 2 := by
  cases instruction with
  | regular regular => cases regular <;> cases displaces
  | irregular irregular =>
      cases irregular with
      | jumpRelative | jumpRelativeIf _ => rfl
      | returnIf condition | jumpIf condition | callIf condition =>
          simp only [successor, Irregular.successor] at displaces
          split at displaces <;> cases displaces
      | _ => cases displaces

namespace Machine

variable {machine : Machine} {cost : Nat} {final : Execution}

/--
An instruction that succeeds has fetched as many bytes as it is long.  The program goes on
behind them, or by a signed displacement from there, or where the instruction jumps,
calls or returns to; a call pushes the address behind it.  Except for STOP, which takes
four cycles, the cost is four cycles for each byte that is fetched, read or written and
for each delay.
-/
theorem executeNext_length_and_cost
    (succeeded : machine.perform .executeNext = .ok cost final) :
    ∃ instruction,
      machine.Begins instruction ∧
        final.accesses.count .fetch = instruction.length ∧
        (match instruction.successor machine.behindOpcode with
          | .next =>
              final.cpu.pc.toNat =
                (machine.cpu.pc.toNat + instruction.length) % 0x10000
          | .displaced displacement =>
              (final.cpu.pc.toNat : Int) =
                (machine.cpu.pc.toNat + 2 + displacement.toInt8.toInt) %
                  0x10000
          | .target address => final.cpu.pc = address) ∧
        (instruction.Calls machine.cpu.flags →
          final.cpu.sp = machine.cpu.sp - 2 ∧
            final.bus =
              machine.bus.pushed machine.cpu.sp
                (machine.cpu.pc + .ofNat instruction.length)) ∧
        (instruction = .irregular .stop → cost = 4) ∧
        (instruction ≠ .irregular .stop →
          cost =
            4 *
              (final.accesses.count .fetch + final.accesses.count .read +
                final.accesses.count .write +
                instruction.delay machine.cpu.flags)) := by
  obtain ⟨opcode, instruction, carries⟩ := executeNext_carries succeeded
  obtain ⟨found, decoded, rfl, rfl⟩ := carries
  let start := (Execution.start machine).beginning opcode
  have goesOn :
      (instruction.finish start).cpu.pc =
        (instruction.successor machine.behindOpcode).address
          (machine.cpu.pc + .ofNat instruction.length) :=
    instruction.finish_pc (show start.cpu.pc = machine.cpu.pc + 1 from rfl)
  refine ⟨instruction, ⟨opcode, found, decoded⟩, ?_, ?_, ?_, ?_, ?_⟩
  · by_cases stops : instruction = .irregular .stop
    · rw [stops]
      rfl
    · obtain ⟨made, accesses, fetches, -⟩ :=
        Instruction.finish_accounts decoded stops start
      have fetched :
          (instruction.finish start).accesses = made ++ [.fetch] :=
        accesses
      rw [fetched, List.count_append, ← fetches]
      rfl
  · have behind (length : Nat) :
        (machine.cpu.pc + .ofNat length).toNat =
          (machine.cpu.pc.toNat + length) % 0x10000 := by
      simp
    cases goes : instruction.successor machine.behindOpcode with
    | next =>
        rw [goes] at goesOn
        exact (congrArg UInt16.toNat goesOn).trans (behind _)
    | displaced displacement =>
        rw [goes, Instruction.length_of_displaced goes] at goesOn
        have signed :=
          Word.toNat_add_ofDisplacement
            (machine.cpu.pc + .ofNat 2) displacement
        rw [behind 2] at signed
        dsimp only
        rw [goesOn, Successor.address, signed]
        omega
    | target address =>
        rw [goes] at goesOn
        exact goesOn
  · intro calls
    exact Instruction.finish_of_calls start calls rfl
  · rintro rfl
    rfl
  · intro continues
    obtain ⟨made, accesses, -, accounted⟩ :=
      Instruction.finish_accounts decoded continues start
    have used :
        (instruction.finish start).accesses.length = made.length + 1 := by
      rw [accesses, List.length_append]
      rfl
    rw [← Access.length_eq_counts, used]
    exact accounted

/-- A machine whose next instruction, at the last address, calls an address in the ROM. -/
def atLastCall : Machine where
  cpu := { Cpu.powerOn with pc := 0xFFFF, sp := 0xC002 }
  bus :=
    { Bus.powerOn
        { Cartridge.blank with
          rom := Array.replicate (2 * Cartridge.romBankSize) 0x12 } with
      interruptEnable := 0xCD }

/-- The call wraps round the address space: what it pushes is the address 2. -/
theorem executeNext_length_and_cost_atLastCall :
    ∃ final,
      atLastCall.perform .executeNext = .ok 24 final ∧
        final.accesses.count .fetch = 3 ∧
        final.cpu.pc = 0x1212 ∧
        final.cpu.sp = 0xC000 ∧
        final.bus = atLastCall.bus.pushed 0xC002 2 ∧
        24 =
          4 *
            (final.accesses.count .fetch + final.accesses.count .read +
              final.accesses.count .write + 1) := by
  have isCall : Instruction.ofOpcode? 0xCD = some (.irregular .call) :=
    rfl
  have foundCall : atLastCall.bus.read atLastCall.cpu.pc = .ok 0xCD :=
    rfl
  have lowAnswered : ¬ Bus.Unanswered 0 := by decide
  have highAnswered : ¬ Bus.Unanswered 1 := by decide
  have succeeded :=
    executeNext_of_answered foundCall isCall
      (List.forall_mem_cons.mpr
        ⟨lowAnswered, List.forall_mem_singleton.mpr highAnswered⟩)
  have filled (place : Nat) (inside : place < 2 * Cartridge.romBankSize) :
      (Array.replicate (2 * Cartridge.romBankSize) (0x12 : UInt8)).getD
          place 0 =
        0x12 := by
    simp [inside]
  have called : atLastCall.behindOpcode.wordAhead = 0x1212 :=
    congrArg₂ Word.ofBytes
      (filled 1 (by simp [Cartridge.romBankSize]))
      (filled 0 (by simp [Cartridge.romBankSize]))
  obtain ⟨instruction, ⟨opcode, found, decoded⟩, fetched, goesOn, pushes, -,
    accounted⟩ := executeNext_length_and_cost succeeded
  cases foundCall.symm.trans found
  cases isCall.symm.trans decoded
  obtain ⟨pointer, pushed⟩ := pushes trivial
  exact
    ⟨_, succeeded, fetched, Eq.trans goesOn called, pointer, pushed,
      accounted (by decide)⟩

end Machine

end Dmg
