import Dmg.Proofs.FailureFrame
import Dmg.Proofs.OpcodeMap
import Dmg.Proofs.StepParts

namespace Dmg

/-!
# What every instruction leaves

Reading is all that can fail in an instruction, so one that succeeds has found a byte at
every address that it reads.  What it costs and what it leaves are then functions of the
execution that it starts in.  They are given here once for every instruction; whatever is
proved about instructions that succeed is proved about these functions.
-/

namespace Machine

/-- The byte at the program counter. -/
def byteAhead (machine : Machine) : UInt8 :=
  machine.bus.byteAt machine.cpu.pc

/-- The word at the program counter, its low byte first. -/
def wordAhead (machine : Machine) : UInt16 :=
  Word.ofBytes
    (machine.bus.byteAt (machine.cpu.pc + 1))
    (machine.bus.byteAt machine.cpu.pc)

/-- The word on top of the stack, its low byte first. -/
def wordOnStack (machine : Machine) : UInt16 :=
  Word.ofBytes
    (machine.bus.byteAt (machine.cpu.sp + 1))
    (machine.bus.byteAt machine.cpu.sp)

/-- The byte that an operand stands for. -/
def valueOf (machine : Machine) : Operand → UInt8
  | .register register => machine.cpu.get register
  | .memory => machine.bus.byteAt machine.cpu.hl

end Machine

namespace Cpu

/-- The processor with other flags. -/
def withFlags
    (flags : Flags)
    (cpu : Cpu) :
    Cpu :=
  { cpu with flags := flags }

/-- The processor at another address. -/
def goingTo
    (address : UInt16)
    (cpu : Cpu) :
    Cpu :=
  { cpu with pc := address }

@[simp]
theorem get_withFlags
    (flags : Flags)
    (cpu : Cpu)
    (register : Register) :
    (cpu.withFlags flags).get register = cpu.get register := by
  cases register <;> rfl

@[simp]
theorem get_goingTo
    (address : UInt16)
    (cpu : Cpu)
    (register : Register) :
    (cpu.goingTo address).get register = cpu.get register := by
  cases register <;> rfl

/-- The processor after an operation on the accumulator; a comparison keeps that. -/
def operating
    (operation : AluOp)
    (value : UInt8)
    (cpu : Cpu) :
    Cpu :=
  let result := Alu.compute operation cpu.a value cpu.flags.carry
  if operation = .cp then
    cpu.withFlags result.flags
  else
    (cpu.withFlags result.flags).set .a result.value

/-- The processor after the accumulator has been rotated. -/
def rotating
    (rotation : Rotation)
    (cpu : Cpu) :
    Cpu :=
  let shifted := rotation.apply cpu.a cpu.flags.carry
  (cpu.set .a shifted.value).withFlags
    { zero := false
      subtract := false
      halfCarry := false
      carry := shifted.carry }

end Cpu

/-- What a pointer makes of HL. -/
def Pointer.follow
    (pointer : Pointer)
    (cpu : Cpu) :
    Cpu :=
  match pointer with
  | .bc | .de => cpu
  | .hlIncrement => cpu.setHl (cpu.hl + 1)
  | .hlDecrement => cpu.setHl (cpu.hl - 1)

namespace Execution

/-- The execution after its processor has changed. -/
def changing
    (execution : Execution)
    (change : Cpu → Cpu) :
    Execution :=
  execution.withCpu (change execution.cpu)

/-- The execution after an operand has been read. -/
def reading (execution : Execution) : Operand → Execution
  | .register _ => execution
  | .memory => execution.noting (.read execution.cpu.hl)

/-- The execution after an operand has been given a value. -/
def assigning
    (execution : Execution)
    (operand : Operand)
    (value : UInt8) :
    Execution :=
  match operand with
  | .register register => execution.changing (·.set register value)
  | .memory => execution.storing execution.cpu.hl value

/-- The execution after a word has been pushed. -/
def pushingWord
    (execution : Execution)
    (word : UInt16) :
    Execution :=
  (execution.pushing (Word.high word)).pushing (Word.low word)

/-- The execution after the accumulator has been loaded from an address. -/
def loading
    (execution : Execution)
    (address : UInt16) :
    Execution :=
  (execution.noting (.read address)).changing
    (·.set .a (execution.bus.byteAt address))

/-- The execution after a return to the address on top of the stack. -/
def unwinding (execution : Execution) : Execution :=
  execution.popping.popping.changing (·.goingTo execution.wordOnStack)

end Execution

namespace Regular

/-- The cost of a regular instruction. -/
def cost : Regular → Nat
  | .loadPairImmediate _ | .pop _ => 12
  | .push _ | .restart _ => 16
  | .addHl _ | .loadIndirect _ _ | .incrementPair _ | .decrementPair _
  | .aluImmediate _ => 8
  | .increment operand | .decrement operand => operand.cost 12 4
  | .loadImmediate operand => operand.cost 12 8
  | .load destination source =>
      max (destination.cost 8 4) (source.cost 8 4)
  | .alu _ operand => operand.cost 8 4

/-- What a regular instruction leaves; it starts with its opcode fetched. -/
def finish (start : Execution) : Regular → Execution
  | .loadPairImmediate pair =>
      start.fetching.fetching.changing (·.setPair pair start.wordAhead)
  | .addHl pair =>
      let sum :=
        Alu.addWords start.cpu.hl (start.cpu.getPair pair) start.cpu.flags
      start.changing fun cpu => (cpu.withFlags sum.flags).setHl sum.value
  | .loadIndirect pointer toAccumulator =>
      let followed := start.changing pointer.follow
      if toAccumulator then
        followed.loading (pointer.address start.cpu)
      else
        followed.storing (pointer.address start.cpu) start.cpu.a
  | .incrementPair pair =>
      start.changing fun cpu => cpu.setPair pair (cpu.getPair pair + 1)
  | .decrementPair pair =>
      start.changing fun cpu => cpu.setPair pair (cpu.getPair pair - 1)
  | .increment operand =>
      let result := Alu.increment (start.valueOf operand) start.cpu.flags
      ((start.reading operand).changing (·.withFlags result.flags)).assigning
        operand result.value
  | .decrement operand =>
      let result := Alu.decrement (start.valueOf operand) start.cpu.flags
      ((start.reading operand).changing (·.withFlags result.flags)).assigning
        operand result.value
  | .loadImmediate operand =>
      start.fetching.assigning operand start.byteAhead
  | .load destination source =>
      (start.reading source).assigning destination (start.valueOf source)
  | .alu operation operand =>
      (start.reading operand).changing
        (·.operating operation (start.valueOf operand))
  | .aluImmediate operation =>
      start.fetching.changing (·.operating operation start.byteAhead)
  | .pop pair =>
      start.popping.popping.changing (·.setStackPair pair start.wordOnStack)
  | .push pair => start.pushingWord (start.cpu.getStackPair pair)
  | .restart vector => start.calling vector

end Regular

namespace Prefixed

/-- The cost of a prefixed instruction. -/
def cost : Prefixed → Nat
  | .bit _ operand => operand.cost 12 8
  | .rotate _ operand | .reset _ operand | .set _ operand =>
      operand.cost 16 8

/-- What a prefixed instruction leaves; it starts with both its bytes fetched. -/
def finish (start : Execution) : Prefixed → Execution
  | .rotate rotation operand =>
      let shifted :=
        rotation.apply (start.valueOf operand) start.cpu.flags.carry
      ((start.reading operand).assigning operand shifted.value).changing
        (·.withFlags
          { zero := shifted.value == 0
            subtract := false
            halfCarry := false
            carry := shifted.carry })
  | .bit index operand =>
      (start.reading operand).changing
        (·.withFlags
          { zero := start.valueOf operand &&& mask index == 0
            subtract := false
            halfCarry := true
            carry := start.cpu.flags.carry })
  | .reset index operand =>
      (start.reading operand).assigning operand
        (start.valueOf operand &&& ~~~mask index)
  | .set index operand =>
      (start.reading operand).assigning operand
        (start.valueOf operand ||| mask index)

end Prefixed

/-- The instruction that a byte stands for after the opcode 0xCB. -/
def Machine.prefixedAhead (machine : Machine) : Prefixed :=
  .ofByte machine.byteAhead

namespace Irregular

/-- The cost of an irregular instruction. -/
def cost (start : Machine) : Irregular → Nat
  | .nop | .rotateAccumulator _ | .stop | .decimalAdjust | .complement
  | .setCarry | .complementCarry | .halt | .jumpHl | .disableInterrupts
  | .enableInterrupts =>
      4
  | .storeHighC | .loadHighC | .loadSpHl => 8
  | .jumpRelative | .storeHigh | .loadHigh | .loadHlSp => 12
  | .jump | .returnAlways | .returnEnable | .addSp | .storeDirect
  | .loadDirect =>
      16
  | .storeSp => 20
  | .call => 24
  | .jumpRelativeIf condition =>
      if condition.holds start.cpu.flags then 12 else 8
  | .returnIf condition =>
      if condition.holds start.cpu.flags then 20 else 8
  | .jumpIf condition =>
      if condition.holds start.cpu.flags then 16 else 12
  | .callIf condition =>
      if condition.holds start.cpu.flags then 24 else 12
  | .prefixed => start.prefixedAhead.cost

/-- What an irregular instruction leaves; it starts with its opcode fetched. -/
def finish (start : Execution) : Irregular → Execution
  | .nop => start
  | .rotateAccumulator rotation => start.changing (·.rotating rotation)
  | .storeSp =>
      (start.fetching.fetching.storing start.wordAhead
          (Word.low start.cpu.sp)).storing
        (start.wordAhead + 1) (Word.high start.cpu.sp)
  | .stop =>
      (start.fetching.noting (.stop (start.cpu.pc + 1 - 2))).changing
        fun cpu => { cpu with halted := true }
  | .jumpRelative =>
      start.fetching.changing
        (·.goingTo
          (start.cpu.pc + 1 + Word.ofDisplacement start.byteAhead))
  | .jumpRelativeIf condition =>
      if condition.holds start.cpu.flags then
        start.fetching.changing
          (·.goingTo
            (start.cpu.pc + 1 + Word.ofDisplacement start.byteAhead))
      else
        start.fetching
  | .decimalAdjust =>
      let result := Alu.decimalAdjust start.cpu.a start.cpu.flags
      start.changing fun cpu =>
        (cpu.set .a result.value).withFlags result.flags
  | .complement =>
      start.changing fun cpu =>
        (cpu.set .a (~~~cpu.a)).withFlags
          { cpu.flags with
            subtract := true
            halfCarry := true }
  | .setCarry =>
      start.changing
        (·.withFlags
          { zero := start.cpu.flags.zero
            subtract := false
            halfCarry := false
            carry := true })
  | .complementCarry =>
      start.changing
        (·.withFlags
          { zero := start.cpu.flags.zero
            subtract := false
            halfCarry := false
            carry := !start.cpu.flags.carry })
  | .halt => start.changing fun cpu => { cpu with halted := true }
  | .returnIf condition =>
      if condition.holds start.cpu.flags then start.unwinding else start
  | .jumpIf condition =>
      if condition.holds start.cpu.flags then
        start.fetching.fetching.changing (·.goingTo start.wordAhead)
      else
        start.fetching.fetching
  | .jump =>
      start.fetching.fetching.changing (·.goingTo start.wordAhead)
  | .callIf condition =>
      if condition.holds start.cpu.flags then
        start.fetching.fetching.calling start.wordAhead
      else
        start.fetching.fetching
  | .returnAlways => start.unwinding
  | .prefixed => start.prefixedAhead.finish start.fetching
  | .call => start.fetching.fetching.calling start.wordAhead
  | .returnEnable => start.unwinding.changing (·.requestIme true)
  | .storeHigh =>
      start.fetching.storing (Action.highPage start.byteAhead) start.cpu.a
  | .storeHighC =>
      start.storing (Action.highPage start.cpu.c) start.cpu.a
  | .addSp =>
      let moved := Alu.displace start.cpu.sp start.byteAhead
      start.fetching.changing fun cpu =>
        { cpu.withFlags moved.flags with sp := moved.value }
  | .jumpHl => start.changing (·.goingTo start.cpu.hl)
  | .storeDirect =>
      start.fetching.fetching.storing start.wordAhead start.cpu.a
  | .loadHigh => start.fetching.loading (Action.highPage start.byteAhead)
  | .loadHighC => start.loading (Action.highPage start.cpu.c)
  | .disableInterrupts => start.changing (·.requestIme false)
  | .loadHlSp =>
      let moved := Alu.displace start.cpu.sp start.byteAhead
      start.fetching.changing fun cpu =>
        (cpu.withFlags moved.flags).setHl moved.value
  | .loadSpHl => start.changing fun cpu => { cpu with sp := cpu.hl }
  | .loadDirect => start.fetching.fetching.loading start.wordAhead
  | .enableInterrupts => start.changing (·.requestIme true)

end Irregular

namespace Instruction

/-- The cost of an instruction. -/
def cost (start : Machine) : Instruction → Nat
  | .irregular instruction => instruction.cost start
  | .regular instruction => instruction.cost

/-- What an instruction leaves; it starts with its opcode fetched. -/
def finish (start : Execution) : Instruction → Execution
  | .irregular instruction => instruction.finish start
  | .regular instruction => instruction.finish start

end Instruction

namespace Action

/-- If the action succeeds it returns the result and leaves the execution. -/
def Yields
    (action : Action α)
    (start : Execution)
    (result : α)
    (final : Execution) :
    Prop :=
  Ensures action start
    (fun returned left => returned = result ∧ left = final)
    Whatever

variable {α β : Type} {start middle final : Execution}

/-- Actions that yield can be carried out one after the other. -/
theorem Yields.bind
    {first : Action β}
    {next : β → Action α}
    {between : β}
    {result : α}
    (firstYields : Yields first start between middle)
    (nextYields : Yields (next between) middle result final) :
    Yields (first >>= next) start result final := by
  refine Ensures.bind firstYields ?_
  rintro _ _ ⟨rfl, rfl⟩
  exact nextYields

/-- What is read is yielded where it is answered. -/
theorem Consults.yields
    {action : Action α}
    {addresses : List UInt16}
    {result : α}
    (consults :
      Consults action start addresses
        (fun returned left => returned = result ∧ left = final)) :
    Yields action start result final :=
  Ensures.mono consults (fun _ _ answered => answered.2.2)
    fun _ _ _ => trivial

theorem yields_fetchByte :
    Yields fetchByte start start.byteAhead start.fetching :=
  consults_fetchByte.yields

theorem yields_fetchWord :
    Yields fetchWord start start.wordAhead start.fetching.fetching :=
  consults_fetchWord.yields

theorem yields_readByte (address : UInt16) :
    Yields (readByte address) start
      (start.bus.byteAt address) (start.noting (.read address)) :=
  (consults_readByte address).yields

theorem yields_popWord :
    Yields popWord start start.wordOnStack start.popping.popping :=
  consults_popWord.yields

theorem yields_readOperand (operand : Operand) :
    Yields (readOperand operand) start
      (start.valueOf operand) (start.reading operand) := by
  cases operand with
  | register name => exact ⟨rfl, rfl⟩
  | memory => exact yields_readByte start.cpu.hl

theorem yields_writeOperand
    (operand : Operand)
    (value : UInt8) :
    Yields (writeOperand operand value) start
      () (start.assigning operand value) := by
  cases operand with
  | register name => exact ⟨rfl, rfl⟩
  | memory => exact ⟨rfl, rfl⟩

theorem yields_operate
    (operation : AluOp)
    (value : UInt8) :
    Yields (operate operation value) start
      () (start.changing (·.operating operation value)) := by
  cases operation <;> exact ⟨rfl, rfl⟩

theorem yields_returnToCaller :
    Yields returnToCaller start () start.unwinding :=
  yields_popWord.bind ⟨rfl, rfl⟩

/-- What follows a test yields what the flags decide. -/
theorem Yields.afterTest
    {whenTrue whenFalse : Action α}
    {trueResult falseResult : α}
    {trueFinal falseFinal : Execution}
    (condition : Condition)
    (trueYields : Yields whenTrue start trueResult trueFinal)
    (falseYields : Yields whenFalse start falseResult falseFinal) :
    Yields
      (test condition >>= fun holds =>
        if holds then whenTrue else whenFalse)
      start
      (if condition.holds start.cpu.flags then trueResult else falseResult)
      (if condition.holds start.cpu.flags then trueFinal else falseFinal) := by
  unfold Yields at *
  rw [ensures_test]
  split
  · exact trueYields
  · exact falseYields

end Action

open Dmg.Action

/-- A regular instruction that succeeds returns its cost and leaves what it should. -/
theorem Regular.execute_yields
    (instruction : Regular)
    (start : Execution) :
    Yields instruction.execute start
      instruction.cost (instruction.finish start) := by
  cases instruction with
  | loadPairImmediate pair => exact yields_fetchWord.bind ⟨rfl, rfl⟩
  | addHl pair => exact ⟨rfl, rfl⟩
  | loadIndirect pointer toAccumulator =>
      cases toAccumulator with
      | false => cases pointer <;> exact ⟨rfl, rfl⟩
      | true =>
          have followed :
              Yields (followPointer pointer) start
                (pointer.address start.cpu)
                (start.changing pointer.follow) := by
            cases pointer <;> exact ⟨rfl, rfl⟩
          exact followed.bind ((yields_readByte _).bind ⟨rfl, rfl⟩)
  | incrementPair pair => exact ⟨rfl, rfl⟩
  | decrementPair pair => exact ⟨rfl, rfl⟩
  | increment operand =>
      refine (yields_readOperand operand).bind ?_
      cases operand with
      | register name => exact ⟨rfl, rfl⟩
      | memory => exact ⟨rfl, rfl⟩
  | decrement operand =>
      refine (yields_readOperand operand).bind ?_
      cases operand with
      | register name => exact ⟨rfl, rfl⟩
      | memory => exact ⟨rfl, rfl⟩
  | loadImmediate operand =>
      refine yields_fetchByte.bind ?_
      exact (yields_writeOperand operand _).bind ⟨rfl, rfl⟩
  | load destination source =>
      refine (yields_readOperand source).bind ?_
      exact (yields_writeOperand destination _).bind ⟨rfl, rfl⟩
  | alu operation operand =>
      refine (yields_readOperand operand).bind ?_
      exact (yields_operate operation _).bind ⟨rfl, rfl⟩
  | aluImmediate operation =>
      refine yields_fetchByte.bind ?_
      exact (yields_operate operation _).bind ⟨rfl, rfl⟩
  | pop pair => exact yields_popWord.bind ⟨rfl, rfl⟩
  | push pair => exact ⟨rfl, rfl⟩
  | restart vector => exact ⟨rfl, rfl⟩

/-- A prefixed instruction that succeeds returns its cost and leaves what it should. -/
theorem Prefixed.execute_yields
    (instruction : Prefixed)
    (start : Execution) :
    Yields instruction.execute start
      instruction.cost (instruction.finish start) := by
  cases instruction with
  | rotate rotation operand =>
      refine (yields_readOperand operand).bind ?_
      cases operand with
      | register name => exact ⟨rfl, rfl⟩
      | memory => exact ⟨rfl, rfl⟩
  | bit index operand =>
      refine (yields_readOperand operand).bind ?_
      cases operand with
      | register name => exact ⟨rfl, rfl⟩
      | memory => exact ⟨rfl, rfl⟩
  | reset index operand =>
      refine (yields_readOperand operand).bind ?_
      exact (yields_writeOperand operand _).bind ⟨rfl, rfl⟩
  | set index operand =>
      refine (yields_readOperand operand).bind ?_
      exact (yields_writeOperand operand _).bind ⟨rfl, rfl⟩

/-- An irregular instruction that succeeds returns its cost and leaves what it should. -/
theorem Irregular.execute_yields
    (instruction : Irregular)
    (start : Execution) :
    Yields instruction.execute start
      (instruction.cost start.toMachine) (instruction.finish start) := by
  cases instruction with
  | storeSp => exact yields_fetchWord.bind ⟨rfl, rfl⟩
  | stop => exact yields_fetchByte.bind ⟨rfl, rfl⟩
  | jumpRelative => exact yields_fetchByte.bind ⟨rfl, rfl⟩
  | jumpRelativeIf condition =>
      refine yields_fetchByte.bind ?_
      exact .afterTest condition ⟨rfl, rfl⟩ ⟨rfl, rfl⟩
  | returnIf condition =>
      refine .afterTest condition ?_ ⟨rfl, rfl⟩
      exact yields_returnToCaller.bind ⟨rfl, rfl⟩
  | jumpIf condition =>
      refine yields_fetchWord.bind ?_
      exact .afterTest condition ⟨rfl, rfl⟩ ⟨rfl, rfl⟩
  | jump => exact yields_fetchWord.bind ⟨rfl, rfl⟩
  | callIf condition =>
      refine yields_fetchWord.bind ?_
      exact .afterTest condition ⟨rfl, rfl⟩ ⟨rfl, rfl⟩
  | returnAlways => exact yields_returnToCaller.bind ⟨rfl, rfl⟩
  | prefixed =>
      exact yields_fetchByte.bind (Prefixed.execute_yields _ start.fetching)
  | call => exact yields_fetchWord.bind ⟨rfl, rfl⟩
  | returnEnable => exact yields_returnToCaller.bind ⟨rfl, rfl⟩
  | storeHigh => exact yields_fetchByte.bind ⟨rfl, rfl⟩
  | addSp => exact yields_fetchByte.bind ⟨rfl, rfl⟩
  | storeDirect => exact yields_fetchWord.bind ⟨rfl, rfl⟩
  | loadHigh =>
      refine yields_fetchByte.bind ?_
      exact (yields_readByte _).bind ⟨rfl, rfl⟩
  | loadHighC => exact (yields_readByte _).bind ⟨rfl, rfl⟩
  | loadHlSp => exact yields_fetchByte.bind ⟨rfl, rfl⟩
  | loadDirect =>
      refine yields_fetchWord.bind ?_
      exact (yields_readByte _).bind ⟨rfl, rfl⟩
  -- The others read nothing after their opcode.
  | _ => exact ⟨rfl, rfl⟩

theorem Instruction.execute_yields
    (instruction : Instruction)
    (start : Execution) :
    Yields instruction.execute start
      (instruction.cost start.toMachine) (instruction.finish start) := by
  cases instruction with
  | regular regular => exact regular.execute_yields start
  | irregular irregular => exact irregular.execute_yields start

namespace Machine

/-- The machine once its next opcode has been fetched. -/
def behindOpcode (machine : Machine) : Machine :=
  { machine with cpu := machine.cpu.goingTo (machine.cpu.pc + 1) }

/-- The next instruction has succeeded, at the cost, and left the execution. -/
structure Carries
    (machine : Machine)
    (opcode : Opcode)
    (instruction : Instruction)
    (cost : Nat)
    (final : Execution) :
    Prop where
  found : machine.bus.read machine.cpu.pc = .ok opcode
  decoded : Instruction.ofOpcode? opcode = some instruction
  cost_eq : cost = instruction.cost machine.behindOpcode
  final_eq :
    final = instruction.finish ((Execution.start machine).beginning opcode)

variable {machine : Machine} {cost : Nat} {final : Execution}

/-- An execution that succeeds has carried out the instruction that it found. -/
theorem executeNext_carries
    (succeeded : machine.perform .executeNext = .ok cost final) :
    ∃ opcode instruction, machine.Carries opcode instruction cost final := by
  have carried :
      Ensures executeNext (.start machine)
        (fun cost final =>
          ∃ opcode instruction,
            machine.Carries opcode instruction cost final)
        Whatever := by
    have begins :
        (Execution.start machine).bus.read (Execution.start machine).cpu.pc =
          machine.bus.read machine.cpu.pc :=
      rfl
    unfold executeNext fetchByte
    simp only [ensures_bind, ensures_cpu, ensures_record, ensures_access,
      Execution.noting_bus, begins]
    cases found : machine.bus.read machine.cpu.pc with
    | error fault => exact trivial
    | ok opcode =>
        simp only [jumpTo, ensures_modifyCpu, ensures_pure]
        cases decoded : Instruction.ofOpcode? opcode with
        | none => exact trivial
        | some instruction =>
            refine Ensures.mono
              (instruction.execute_yields
                ((Execution.start machine).beginning opcode)) ?_ ?_
            · rintro cost final ⟨sameCost, sameFinal⟩
              exact ⟨opcode, instruction, found, decoded, sameCost, sameFinal⟩
            · intro fault final _
              exact trivial
  exact carried.of_ok succeeded

/-- An instruction whose reads are all answered is carried out. -/
theorem executeNext_of_answered
    {opcode : Opcode}
    {instruction : Instruction}
    (found : machine.bus.read machine.cpu.pc = .ok opcode)
    (decoded : Instruction.ofOpcode? opcode = some instruction)
    (answered :
      ∀ address ∈ instruction.readAddresses machine.behindOpcode.cpu machine.bus,
        ¬ Bus.Unanswered address.toNat) :
    machine.perform .executeNext =
      .ok (instruction.cost machine.behindOpcode)
        (instruction.finish ((Execution.start machine).beginning opcode)) := by
  have isByte := Bus.byteAt_of_read found
  have opcodeAnswered := Bus.answered_of_read found
  have addresses :
      machine.readAddresses =
        machine.cpu.pc ::
          instruction.readAddresses machine.behindOpcode.cpu machine.bus := by
    rw [readAddresses, isByte, decoded]
    rfl
  have succeeds :
      ∃ cost final, machine.perform .executeNext = .ok cost final := by
    rw [executeNext_ok_iff, addresses]
    constructor
    · exact List.forall_mem_cons.mpr ⟨opcodeAnswered, answered⟩
    · rintro hole isHole foundHole
      cases found.symm.trans foundHole
      cases decoded.symm.trans
        ((Instruction.ofOpcode?_eq_none_iff opcode).mpr isHole)
  obtain ⟨cost, final, succeeded⟩ := succeeds
  obtain ⟨opcode', instruction', carries⟩ := executeNext_carries succeeded
  cases found.symm.trans carries.found
  cases decoded.symm.trans carries.decoded
  rw [succeeded, carries.cost_eq, carries.final_eq]

/-- The next instruction is carried out if a byte is found wherever it reads. -/
theorem executeNext_of_begins
    {instruction : Instruction}
    (begins : machine.Begins instruction)
    (found :
      ∀ address ∈
          instruction.readAddresses machine.behindOpcode.cpu machine.bus,
        ∃ byte, machine.bus.read address = .ok byte) :
    ∃ opcode,
      machine.perform .executeNext =
        .ok (instruction.cost machine.behindOpcode)
          (instruction.finish
            ((Execution.start machine).beginning opcode)) := by
  obtain ⟨opcode, opcodeFound, decoded⟩ := begins
  refine ⟨opcode, executeNext_of_answered opcodeFound decoded ?_⟩
  intro address isRead
  obtain ⟨byte, byteFound⟩ := found address isRead
  exact Bus.answered_of_read byteFound

end Machine

end Dmg
