import Dmg.Proofs.InstructionEffect

namespace Dmg

/-!
# What every instruction may change

Each instruction has a footprint: the byte registers that it may change, whether it may
change the flags or the stack pointer, and whether it halts the processor.  Beyond that
it changes the program counter, and memory where it stores.  The stores are made through
the bus one after the other, at addresses that are told by the registers and by the bytes
of the instruction.
-/

/-- What an instruction may change of the processor besides the program counter. -/
structure Footprint where
  registers : List Register := []
  flags : Bool := false
  stackPointer : Bool := false
  halts : Bool := false
  deriving Repr, DecidableEq

/-- From one processor to another, only what the footprint allows has changed. -/
structure Footprint.Confines
    (footprint : Footprint)
    (before after : Cpu) :
    Prop where
  registers :
    ∀ register, register ∉ footprint.registers →
      after.get register = before.get register
  flags : footprint.flags = false → after.flags = before.flags
  stackPointer : footprint.stackPointer = false → after.sp = before.sp
  halted :
    after.halted = if footprint.halts then true else before.halted
  ime : after.ime = before.ime

/-- The byte registers that an operand names. -/
def Operand.registers : Operand → List Register
  | .register name => [name]
  | .memory => []

/-- The byte registers of a pair. -/
def Pair.registers : Pair → List Register
  | .bc => [.b, .c]
  | .de => [.d, .e]
  | .hl => [.h, .l]
  | .sp => []

/-- The byte registers of a stacked pair. -/
def StackPair.registers : StackPair → List Register
  | .bc => [.b, .c]
  | .de => [.d, .e]
  | .hl => [.h, .l]
  | .af => [.a]

/-- The byte registers that change where a pointer is followed. -/
def Pointer.registers : Pointer → List Register
  | .bc | .de => []
  | .hlIncrement | .hlDecrement => [.h, .l]

/-- The byte registers that an operation gives its result to. -/
def AluOp.registers : AluOp → List Register
  | .cp => []
  | _ => [.a]

/-- The footprint of a regular instruction. -/
def Regular.footprint : Regular → Footprint
  | .loadPairImmediate pair | .incrementPair pair | .decrementPair pair =>
      { registers := pair.registers
        stackPointer := pair = .sp }
  | .addHl _ =>
      { registers := [.h, .l]
        flags := true }
  | .loadIndirect pointer toAccumulator =>
      { registers :=
          pointer.registers ++ if toAccumulator then [.a] else [] }
  | .increment operand | .decrement operand =>
      { registers := operand.registers
        flags := true }
  | .loadImmediate operand | .load operand _ =>
      { registers := operand.registers }
  | .alu operation _ | .aluImmediate operation =>
      { registers := operation.registers
        flags := true }
  | .pop pair =>
      { registers := pair.registers
        flags := pair = .af
        stackPointer := true }
  | .push _ | .restart _ => { stackPointer := true }

/-- The footprint of a prefixed instruction. -/
def Prefixed.footprint : Prefixed → Footprint
  | .rotate _ operand =>
      { registers := operand.registers
        flags := true }
  | .bit _ _ => { flags := true }
  | .reset _ operand | .set _ operand =>
      { registers := operand.registers }

/-- The footprint of an irregular instruction whose opcode has been fetched. -/
def Irregular.footprint (start : Machine) : Irregular → Footprint
  | .rotateAccumulator _ | .decimalAdjust | .complement =>
      { registers := [.a]
        flags := true }
  | .setCarry | .complementCarry => { flags := true }
  | .stop | .halt => { halts := true }
  | .returnIf condition | .callIf condition =>
      { stackPointer := condition.holds start.cpu.flags }
  | .returnAlways | .returnEnable | .call | .loadSpHl =>
      { stackPointer := true }
  | .addSp =>
      { flags := true
        stackPointer := true }
  | .loadHlSp =>
      { registers := [.h, .l]
        flags := true }
  | .loadHigh | .loadHighC | .loadDirect => { registers := [.a] }
  | .prefixed => start.prefixedAhead.footprint
  | .nop | .storeSp | .jumpRelative | .jumpRelativeIf _ | .jumpIf _ | .jump
  | .storeHigh | .storeHighC | .jumpHl | .storeDirect | .disableInterrupts
  | .enableInterrupts =>
      {}

/-- The footprint of an instruction whose opcode has been fetched. -/
def Instruction.footprint (start : Machine) : Instruction → Footprint
  | .regular instruction => instruction.footprint
  | .irregular instruction => instruction.footprint start

namespace Footprint.Confines

variable {footprint : Footprint} {before after : Cpu}

/-- Nothing has changed. -/
theorem refl
    (goesOn : footprint.halts = false)
    (cpu : Cpu) :
    footprint.Confines cpu cpu where
  registers := fun _ _ => rfl
  flags := fun _ => rfl
  stackPointer := fun _ => rfl
  halted := by rw [goesOn]; rfl
  ime := rfl

/-- A register of the footprint may be set. -/
theorem set
    (confines : footprint.Confines before after)
    {name : Register}
    (allowed : name ∈ footprint.registers)
    (value : UInt8) :
    footprint.Confines before (after.set name value) := by
  refine ⟨?_, ?_, ?_, ?_, ?_⟩
  · intro register outside
    have different : register ≠ name := by
      rintro rfl
      exact outside allowed
    rw [Cpu.get_set_other different]
    exact confines.registers register outside
  · cases name <;> exact confines.flags
  · cases name <;> exact confines.stackPointer
  · cases name <;> exact confines.halted
  · cases name <;> exact confines.ime

/-- The flags may be replaced if the footprint allows that. -/
theorem withFlags
    (confines : footprint.Confines before after)
    (allowed : footprint.flags = true)
    (flags : Flags) :
    footprint.Confines before (after.withFlags flags) where
  registers := confines.registers
  flags := by
    rw [allowed]
    rintro ⟨⟩
  stackPointer := confines.stackPointer
  halted := confines.halted
  ime := confines.ime

/-- The stack pointer may be moved if the footprint allows that. -/
theorem withStackPointer
    (confines : footprint.Confines before after)
    (allowed : footprint.stackPointer = true)
    (address : UInt16) :
    footprint.Confines before { after with sp := address } where
  registers := confines.registers
  flags := confines.flags
  stackPointer := by
    rw [allowed]
    rintro ⟨⟩
  halted := confines.halted
  ime := confines.ime

theorem goingTo
    (confines : footprint.Confines before after)
    (address : UInt16) :
    footprint.Confines before (after.goingTo address) where
  registers := confines.registers
  flags := confines.flags
  stackPointer := confines.stackPointer
  halted := confines.halted
  ime := confines.ime

theorem requestIme
    (confines : footprint.Confines before after)
    (enable : Bool) :
    footprint.Confines before (after.requestIme enable) where
  registers := confines.registers
  flags := confines.flags
  stackPointer := confines.stackPointer
  halted := confines.halted
  ime := confines.ime

/-- The accumulator may be set where the footprint is that of an operation. -/
theorem operating
    (confines : footprint.Confines before after)
    {operation : AluOp}
    (allowed : footprint.registers = operation.registers)
    (flagsAllowed : footprint.flags = true)
    (value : UInt8) :
    footprint.Confines before (after.operating operation value) := by
  have flagged := confines.withFlags flagsAllowed
  cases operation with
  | cp => exact flagged _
  | _ => exact (flagged _).set (by rw [allowed]; exact .head _) _

/-- A pair may be set if its registers, or the stack pointer, may. -/
theorem setPair
    (confines : footprint.Confines before after)
    (pair : Pair)
    (allowed : footprint.registers = pair.registers)
    (stackAllowed : footprint.stackPointer = decide (pair = .sp))
    (value : UInt16) :
    footprint.Confines before (after.setPair pair value) := by
  have named {name : Register} (member : name ∈ pair.registers) :
      name ∈ footprint.registers := by
    rw [allowed]
    exact member
  cases pair with
  | bc | de | hl =>
      exact
        (confines.set (named (.head _)) (Word.high value)).set
          (named (.tail _ (.head _))) (Word.low value)
  | sp => exact confines.withStackPointer stackAllowed value

/-- A stacked pair may be set if its registers, and perhaps the flags, may. -/
theorem setStackPair
    (confines : footprint.Confines before after)
    {pair : StackPair}
    (allowed : footprint.registers = pair.registers)
    (flagsAllowed : footprint.flags = decide (pair = .af))
    (value : UInt16) :
    footprint.Confines before (after.setStackPair pair value) := by
  have named {name : Register} (member : name ∈ pair.registers) :
      name ∈ footprint.registers := by
    rw [allowed]
    exact member
  cases pair with
  | bc | de | hl =>
      exact
        (confines.set (named (.head _)) (Word.high value)).set
          (named (.tail _ (.head _))) (Word.low value)
  | af =>
      exact
        (confines.set (named (.head _)) (Word.high value)).withFlags
          flagsAllowed (.ofByte (Word.low value))

/-- HL may be moved where a pointer is followed. -/
theorem follow
    (confines : footprint.Confines before after)
    (pointer : Pointer)
    (allowed : pointer.registers ⊆ footprint.registers) :
    footprint.Confines before (pointer.follow after) := by
  cases pointer with
  | bc | de => exact confines
  | hlIncrement | hlDecrement =>
      have high := confines.set (allowed (.head _))
      exact (high (Word.high _)).set (allowed (.tail _ (.head _)))
        (Word.low _)

/-- An operand may be assigned to if its register, if any, may be set. -/
theorem assigning
    {operand : Operand}
    (allowed : footprint.registers = operand.registers)
    (value : UInt8)
    (execution : Execution)
    (confines : footprint.Confines before execution.cpu) :
    footprint.Confines before (execution.assigning operand value).cpu := by
  cases operand with
  | register name =>
      exact confines.set (by rw [allowed]; exact .head _) value
  | memory => exact confines

theorem reading
    {execution : Execution}
    (confines : footprint.Confines before execution.cpu)
    (operand : Operand) :
    footprint.Confines before (execution.reading operand).cpu := by
  cases operand with
  | register name => exact confines
  | memory => exact confines

section Stack

variable
  {execution : Execution}
  (confines : footprint.Confines before execution.cpu)
include confines

theorem fetching : footprint.Confines before execution.fetching.cpu :=
  confines.goingTo _

variable (allowed : footprint.stackPointer = true)
include allowed

theorem popping : footprint.Confines before execution.popping.cpu :=
  confines.withStackPointer allowed _

theorem pushing (value : UInt8) :
    footprint.Confines before (execution.pushing value).cpu :=
  confines.withStackPointer allowed _

/-- A return takes a word from the stack. -/
theorem unwinding : footprint.Confines before execution.unwinding.cpu :=
  ((confines.popping allowed).popping allowed).goingTo _

/-- A call puts a word on the stack. -/
theorem calling (address : UInt16) :
    footprint.Confines before (execution.calling address).cpu :=
  ((confines.pushing allowed _).pushing allowed _).goingTo address

end Stack

/-- The outcome of a branch is confined if both of its ways are. -/
theorem afterTest
    {whenTrue whenFalse : Execution}
    (holds : Bool)
    (trueConfined :
      holds = true → footprint.Confines before whenTrue.cpu)
    (falseConfined : footprint.Confines before whenFalse.cpu) :
    footprint.Confines before
      (if holds then whenTrue else whenFalse).cpu := by
  split
  · rename_i taken
    exact trueConfined taken
  · exact falseConfined

end Footprint.Confines

/-- A regular instruction keeps to its footprint. -/
theorem Regular.finish_confined
    (instruction : Regular)
    (start : Execution) :
    instruction.footprint.Confines start.cpu
      (instruction.finish start).cpu := by
  have goesOn : instruction.footprint.halts = false := by
    cases instruction <;> rfl
  have unchanged := Footprint.Confines.refl goesOn start.cpu
  cases instruction with
  | loadPairImmediate pair =>
      exact unchanged.fetching.fetching.setPair pair rfl rfl _
  | addHl pair =>
      exact (unchanged.withFlags rfl _).setPair .hl rfl rfl _
  | loadIndirect pointer toAccumulator =>
      have followed :=
        unchanged.follow pointer (List.subset_append_left _ _)
      cases toAccumulator with
      | false => exact followed
      | true =>
          exact followed.set (List.mem_append_right _ (.head _)) _
  | incrementPair pair => exact unchanged.setPair pair rfl rfl _
  | decrementPair pair => exact unchanged.setPair pair rfl rfl _
  | increment operand =>
      exact .assigning rfl _ _
        ((unchanged.reading operand).withFlags rfl _)
  | decrement operand =>
      exact .assigning rfl _ _
        ((unchanged.reading operand).withFlags rfl _)
  | loadImmediate operand =>
      exact .assigning rfl _ _ unchanged.fetching
  | load destination source =>
      exact .assigning rfl _ _ (unchanged.reading source)
  | alu operation operand =>
      exact (unchanged.reading operand).operating rfl rfl _
  | aluImmediate operation =>
      exact unchanged.fetching.operating rfl rfl _
  | pop pair =>
      exact ((unchanged.popping rfl).popping rfl).setStackPair rfl rfl _
  | push pair => exact (unchanged.pushing rfl _).pushing rfl _
  | restart vector => exact unchanged.calling rfl vector

/-- A prefixed instruction keeps to its footprint, also as its second byte is fetched. -/
theorem Prefixed.finish_confined
    (instruction : Prefixed)
    (start : Execution) :
    instruction.footprint.Confines start.cpu
      (instruction.finish start.fetching).cpu := by
  have goesOn : instruction.footprint.halts = false := by
    cases instruction <;> rfl
  have fetched := (Footprint.Confines.refl goesOn start.cpu).fetching
  cases instruction with
  | rotate rotation operand =>
      exact
        (Footprint.Confines.assigning rfl _ _
          (fetched.reading operand)).withFlags rfl _
  | bit index operand => exact (fetched.reading operand).withFlags rfl _
  | reset index operand =>
      exact .assigning rfl _ _ (fetched.reading operand)
  | set index operand =>
      exact .assigning rfl _ _ (fetched.reading operand)

/-- An irregular instruction keeps to its footprint. -/
theorem Irregular.finish_confined
    (instruction : Irregular)
    (start : Execution) :
    (instruction.footprint start.toMachine).Confines start.cpu
      (instruction.finish start).cpu := by
  have unchanged
      (goesOn : (instruction.footprint start.toMachine).halts = false) :=
    Footprint.Confines.refl goesOn start.cpu
  cases instruction with
  | stop | halt =>
      exact ⟨fun _ _ => rfl, fun _ => rfl, fun _ => rfl, rfl, rfl⟩
  | prefixed => exact start.prefixedAhead.finish_confined start
  | rotateAccumulator rotation =>
      exact ((unchanged rfl).set (.head _) _).withFlags rfl _
  | decimalAdjust => exact ((unchanged rfl).set (.head _) _).withFlags rfl _
  | complement => exact ((unchanged rfl).set (.head _) _).withFlags rfl _
  | setCarry => exact (unchanged rfl).withFlags rfl _
  | complementCarry => exact (unchanged rfl).withFlags rfl _
  | jumpRelativeIf condition =>
      refine .afterTest _ (fun _ => ?_) (unchanged rfl).fetching
      exact (unchanged rfl).fetching.goingTo _
  | returnIf condition =>
      refine .afterTest _ (fun taken => ?_) (unchanged rfl)
      exact (unchanged rfl).unwinding taken
  | jumpIf condition =>
      refine .afterTest _ (fun _ => ?_) (unchanged rfl).fetching.fetching
      exact (unchanged rfl).fetching.fetching.goingTo _
  | callIf condition =>
      refine .afterTest _ (fun taken => ?_) (unchanged rfl).fetching.fetching
      exact (unchanged rfl).fetching.fetching.calling taken _
  | returnAlways => exact (unchanged rfl).unwinding rfl
  | returnEnable => exact ((unchanged rfl).unwinding rfl).requestIme true
  | call => exact (unchanged rfl).fetching.fetching.calling rfl _
  | addSp =>
      exact ((unchanged rfl).fetching.withFlags rfl _).withStackPointer rfl _
  | loadHlSp =>
      have flagged := (unchanged rfl).fetching.withFlags rfl
      exact (flagged _).setPair .hl rfl rfl _
  | loadSpHl => exact (unchanged rfl).withStackPointer rfl _
  | loadHigh => exact (unchanged rfl).fetching.set (.head _) _
  | loadHighC => exact (unchanged rfl).set (.head _) _
  | loadDirect => exact (unchanged rfl).fetching.fetching.set (.head _) _
  | disableInterrupts => exact (unchanged rfl).requestIme false
  | enableInterrupts => exact (unchanged rfl).requestIme true
  | nop | storeHighC => exact unchanged rfl
  | jumpHl => exact (unchanged rfl).goingTo _
  | storeHigh => exact (unchanged rfl).fetching
  | jumpRelative => exact (unchanged rfl).fetching.goingTo _
  | jump => exact (unchanged rfl).fetching.fetching.goingTo _
  | storeSp | storeDirect => exact (unchanged rfl).fetching.fetching

theorem Instruction.finish_confined
    (instruction : Instruction)
    (start : Execution) :
    (instruction.footprint start.toMachine).Confines start.cpu
      (instruction.finish start).cpu := by
  cases instruction with
  | regular regular => exact regular.finish_confined start
  | irregular irregular => exact irregular.finish_confined start

/-- The stores that a journal records, the earliest first. -/
def storesOf : List Event → List (UInt16 × UInt8)
  | [] => []
  | .write address value :: earlier => storesOf earlier ++ [(address, value)]
  | _ :: earlier => storesOf earlier

/-- The stores that have been made so far, the earliest first. -/
def Execution.stores (execution : Execution) : List (UInt16 × UInt8) :=
  storesOf execution.journal

/-- The bus after bytes have been written one after the other. -/
def Bus.writeAll
    (bus : Bus)
    (stores : List (UInt16 × UInt8)) :
    Bus :=
  stores.foldl (fun bus store => bus.write store.1 store.2) bus

/-- The addresses where a word is pushed, its high byte first. -/
def Cpu.pushAddresses (cpu : Cpu) : List UInt16 :=
  [cpu.sp - 1, cpu.sp - 2]

/-- The addresses that an operand is written to. -/
def Operand.storeAddresses (cpu : Cpu) : Operand → List UInt16
  | .register _ => []
  | .memory => [cpu.hl]

/-- The addresses that a regular instruction stores at, in their order. -/
def Regular.storeAddresses (start : Machine) : Regular → List UInt16
  | .loadIndirect pointer toAccumulator =>
      if toAccumulator then [] else [pointer.address start.cpu]
  | .increment operand | .decrement operand | .loadImmediate operand
  | .load operand _ =>
      operand.storeAddresses start.cpu
  | .push _ | .restart _ => start.cpu.pushAddresses
  | .loadPairImmediate _ | .addHl _ | .incrementPair _ | .decrementPair _
  | .alu _ _ | .aluImmediate _ | .pop _ =>
      []

/-- The addresses that a prefixed instruction stores at. -/
def Prefixed.storeAddresses (start : Machine) : Prefixed → List UInt16
  | .rotate _ operand | .reset _ operand | .set _ operand =>
      operand.storeAddresses start.cpu
  | .bit _ _ => []

/-- The addresses that an irregular instruction stores at, in their order. -/
def Irregular.storeAddresses (start : Machine) : Irregular → List UInt16
  | .storeSp => [start.wordAhead, start.wordAhead + 1]
  | .storeHigh => [Action.highPage start.byteAhead]
  | .storeHighC => [Action.highPage start.cpu.c]
  | .storeDirect => [start.wordAhead]
  | .call => start.cpu.pushAddresses
  | .callIf condition =>
      if condition.holds start.cpu.flags then
        start.cpu.pushAddresses
      else
        []
  | .prefixed => start.prefixedAhead.storeAddresses start
  | _ => []

/-- The addresses that an instruction stores at once its opcode has been fetched. -/
def Instruction.storeAddresses (start : Machine) : Instruction → List UInt16
  | .regular instruction => instruction.storeAddresses start
  | .irregular instruction => instruction.storeAddresses start

/-- Since the start the bus has changed by stores at the addresses, and not otherwise. -/
def Execution.StoresAt
    (start : Execution)
    (addresses : List UInt16)
    (final : Execution) :
    Prop :=
  ∃ made : List (UInt16 × UInt8),
    final.stores = start.stores ++ made ∧
      made.map Prod.fst = addresses ∧
      final.bus = start.bus.writeAll made

/-- Since the start the execution has at most read, and its pointers have not moved. -/
structure Execution.Reads
    (start final : Execution) :
    Prop where
  stores : final.stores = start.stores
  bus : final.bus = start.bus
  hl : final.cpu.hl = start.cpu.hl
  sp : final.cpu.sp = start.cpu.sp

theorem Execution.Reads.refl (start : Execution) : start.Reads start :=
  ⟨rfl, rfl, rfl, rfl⟩

theorem Execution.reads_reading
    (start : Execution)
    (operand : Operand) :
    start.Reads (start.reading operand) := by
  cases operand <;> exact ⟨rfl, rfl, rfl, rfl⟩

namespace Execution.StoresAt

variable {start final : Execution}

/-- Nothing has been stored. -/
theorem none
    (sameStores : final.stores = start.stores)
    (sameBus : final.bus = start.bus) :
    StoresAt start [] final :=
  ⟨[], sameStores.trans (List.append_nil _).symm, rfl, sameBus⟩

/-- One byte has been stored. -/
theorem one
    {address : UInt16}
    {value : UInt8}
    (stored : final.stores = start.stores ++ [(address, value)])
    (written : final.bus = start.bus.write address value) :
    StoresAt start [address] final :=
  ⟨[(address, value)], stored, rfl, written⟩

section Reading

variable
  {execution : Execution}
  (read : start.Reads execution)
include read

/-- A byte has been stored if the operand is in memory. -/
theorem assigning
    (operand : Operand)
    (value : UInt8) :
    StoresAt start (operand.storeAddresses start.cpu)
      (execution.assigning operand value) := by
  cases operand with
  | register name => exact .none read.stores read.bus
  | memory =>
      refine ⟨[(start.cpu.hl, value)], ?_, rfl, ?_⟩
      · rw [← read.stores, ← read.hl]
        rfl
      · rw [← read.bus, ← read.hl]
        rfl

/-- A word has been pushed. -/
theorem pushingWord (word : UInt16) :
    StoresAt start start.cpu.pushAddresses (execution.pushingWord word) := by
  have lower : execution.cpu.sp - 1 - 1 = execution.cpu.sp - 2 := by
    grind
  unfold Cpu.pushAddresses
  rw [← read.sp, ← lower]
  refine
    ⟨[(execution.cpu.sp - 1, Word.high word),
        (execution.cpu.sp - 1 - 1, Word.low word)],
      ?_, rfl, ?_⟩
  · rw [← read.stores]
    exact List.append_assoc execution.stores [_] [_]
  · rw [← read.bus]
    rfl

/-- A call pushes the program counter. -/
theorem calling (address : UInt16) :
    StoresAt start start.cpu.pushAddresses (execution.calling address) :=
  pushingWord read execution.cpu.pc

end Reading

/-- What one way of a branch stores, the other does not. -/
theorem afterTest
    {whenTrue whenFalse : Execution}
    {addresses : List UInt16}
    (holds : Bool)
    (trueStores : StoresAt start addresses whenTrue)
    (falseStores : StoresAt start [] whenFalse) :
    StoresAt start (if holds then addresses else [])
      (if holds then whenTrue else whenFalse) := by
  split
  · exact trueStores
  · exact falseStores

theorem neither
    {whenTrue whenFalse : Execution}
    (holds : Bool)
    (trueStores : StoresAt start [] whenTrue)
    (falseStores : StoresAt start [] whenFalse) :
    StoresAt start [] (if holds then whenTrue else whenFalse) := by
  have either := afterTest holds trueStores falseStores
  rwa [ite_self] at either

end Execution.StoresAt

/-- A regular instruction stores at its addresses. -/
theorem Regular.finish_stores
    (instruction : Regular)
    (start : Execution) :
    start.StoresAt (instruction.storeAddresses start.toMachine)
      (instruction.finish start) := by
  cases instruction with
  | loadIndirect pointer toAccumulator =>
      cases toAccumulator with
      | false => exact .one rfl rfl
      | true => exact .none rfl rfl
  | increment operand =>
      have read := Execution.reads_reading start operand
      refine .assigning ?_ operand _
      exact ⟨read.stores, read.bus, read.hl, read.sp⟩
  | decrement operand =>
      have read := Execution.reads_reading start operand
      refine .assigning ?_ operand _
      exact ⟨read.stores, read.bus, read.hl, read.sp⟩
  | loadImmediate operand =>
      have read : start.Reads start.fetching := ⟨rfl, rfl, rfl, rfl⟩
      exact .assigning read operand _
  | load destination source =>
      have read := Execution.reads_reading start source
      exact .assigning read destination _
  | alu operation operand => cases operand <;> exact .none rfl rfl
  | push pair => exact .pushingWord (.refl start) _
  | restart vector => exact .calling (.refl start) _
  | _ => exact .none rfl rfl

/-- A prefixed instruction stores at its addresses, of which it needs no further bytes. -/
theorem Prefixed.finish_stores
    (instruction : Prefixed)
    (start : Execution) :
    start.StoresAt (instruction.storeAddresses start.toMachine)
      (instruction.finish start.fetching) := by
  have read (operand : Operand) :
      start.Reads (start.fetching.reading operand) := by
    cases operand <;> exact ⟨rfl, rfl, rfl, rfl⟩
  cases instruction with
  | rotate rotation operand => exact .assigning (read operand) operand _
  | bit index operand => cases operand <;> exact .none rfl rfl
  | reset index operand => exact .assigning (read operand) operand _
  | set index operand => exact .assigning (read operand) operand _

/-- An irregular instruction stores at its addresses. -/
theorem Irregular.finish_stores
    (instruction : Irregular)
    (start : Execution) :
    start.StoresAt (instruction.storeAddresses start.toMachine)
      (instruction.finish start) := by
  have fetched : start.Reads start.fetching.fetching := ⟨rfl, rfl, rfl, rfl⟩
  cases instruction with
  | storeSp =>
      refine
        ⟨[(start.wordAhead, Word.low start.cpu.sp),
            (start.wordAhead + 1, Word.high start.cpu.sp)],
          ?_, rfl, rfl⟩
      exact List.append_assoc start.stores [_] [_]
  | storeHigh => exact .one rfl rfl
  | storeHighC => exact .one rfl rfl
  | storeDirect => exact .one rfl rfl
  | call => exact .calling fetched _
  | callIf condition =>
      exact .afterTest _ (.calling fetched _) (.none rfl rfl)
  | jumpRelativeIf condition | jumpIf condition | returnIf condition =>
      exact .neither _ (.none rfl rfl) (.none rfl rfl)
  | prefixed => exact start.prefixedAhead.finish_stores start
  | _ => exact .none rfl rfl

/-- An instruction stores at its addresses. -/
theorem Instruction.finish_stores
    (instruction : Instruction)
    (start : Execution) :
    start.StoresAt (instruction.storeAddresses start.toMachine)
      (instruction.finish start) := by
  cases instruction with
  | regular regular => exact regular.finish_stores start
  | irregular irregular => exact irregular.finish_stores start

namespace Machine

variable {machine : Machine} {cost : Nat} {final : Execution}

/--
An instruction that succeeds changes the byte registers, the flags and the stack pointer
only where its footprint says so, halts the processor only if it is made for that, and
leaves the master enable alone; what is pending of that changes only if the instruction
requests it.  The bus is what it was but for the stores of the instruction, which are made
one after the other at its addresses.
-/
theorem executeNext_footprint
    (succeeded : machine.perform .executeNext = .ok cost final) :
    ∃ instruction,
      machine.Begins instruction ∧
        (instruction.footprint machine.behindOpcode).Confines
          machine.cpu final.cpu ∧
        final.stores.map Prod.fst =
          instruction.storeAddresses machine.behindOpcode ∧
        final.bus = machine.bus.writeAll final.stores ∧
        final.cpu.pendingIme =
          instruction.pendingAfter machine.cpu.pendingIme := by
  have reads := (Action.executeNext_reads (.start machine)).of_ok succeeded
  obtain ⟨opcode, instruction, carries⟩ := executeNext_carries succeeded
  obtain ⟨found, decoded, rfl, rfl⟩ := carries
  let start := (Execution.start machine).beginning opcode
  obtain ⟨made, stores, addresses, written⟩ :=
    instruction.finish_stores start
  have confined := instruction.finish_confined start
  refine ⟨instruction, ⟨opcode, found, decoded⟩, ?_, ?_, ?_, ?_⟩
  · -- The opcode has been fetched, which moves the program counter only.
    exact
      ⟨confined.registers, confined.flags, confined.stackPointer,
        confined.halted, confined.ime⟩
  · rw [stores]
    exact addresses
  · rw [stores]
    exact written
  · obtain ⟨-, -, same, sameDecoded, left⟩ := reads
    have isByte := Bus.byteAt_of_read found
    have isSame : some same = some instruction := by
      rw [← decoded, ← isByte]
      exact sameDecoded.symm
    cases isSame
    exact left

/-- A machine whose next instruction, at the last address, pushes AF into the RAM. -/
def atLastPush : Machine where
  cpu := { Cpu.powerOn with pc := 0xFFFF, sp := 0xC002 }
  bus := { Bus.powerOn Cartridge.blank with interruptEnable := 0xF5 }

/-- The push stores twice, downwards, and changes nothing else but the stack pointer. -/
theorem executeNext_footprint_atLastPush :
    ∃ final,
      atLastPush.perform .executeNext = .ok 16 final ∧
        (∀ register,
          final.cpu.get register = atLastPush.cpu.get register) ∧
        final.cpu.flags = atLastPush.cpu.flags ∧
        final.cpu.halted = false ∧
        final.stores.map Prod.fst = [0xC001, 0xC000] ∧
        final.bus = atLastPush.bus.writeAll final.stores ∧
        final.cpu.pendingIme = none := by
  have isPush :
      Instruction.ofOpcode? 0xF5 = some (.regular (.push .af)) :=
    rfl
  have found : atLastPush.bus.read atLastPush.cpu.pc = .ok 0xF5 :=
    rfl
  have succeeded := executeNext_of_answered found isPush nofun
  obtain ⟨instruction, ⟨opcode, sameFound, decoded⟩, confined, addresses,
    written, left⟩ := executeNext_footprint succeeded
  cases found.symm.trans sameFound
  cases isPush.symm.trans decoded
  exact
    ⟨_, succeeded, fun register => confined.registers register (by nofun),
      confined.flags rfl, confined.halted, addresses, written, left⟩

end Machine

end Dmg
