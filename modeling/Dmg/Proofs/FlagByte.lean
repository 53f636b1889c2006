import Dmg.Proofs.DecimalArithmetic
import Dmg.Proofs.Halt
import Dmg.Proofs.InstructionFootprint
import Dmg.Proofs.NestedCalls

namespace Dmg

/-!
# The flag register as a byte

Four truth values cannot say what the lower half of a byte holds.  Here the flag register is
one byte with all its eight bits, beside a machine.  Instructions assign to it by masking
and joining bytes, and only the pop of a word into it drops a lower half.  Nevertheless the
lower half stays clear whatever the machine does, and the upper half tells its flags.
-/

namespace Flags

def zeroBit : UInt8 :=
  0x80

def subtractBit : UInt8 :=
  0x40

def halfCarryBit : UInt8 :=
  0x20

def carryBit : UInt8 :=
  0x10

@[simp]
theorem weigh_false (bit : UInt8) : weigh false bit = 0 :=
  rfl

@[simp]
theorem weigh_true (bit : UInt8) : weigh true bit = bit :=
  rfl

theorem toByte_mk (zero subtract halfCarry carry : Bool) :
    toByte ⟨zero, subtract, halfCarry, carry⟩ =
      weigh zero zeroBit ||| weigh subtract subtractBit |||
        weigh halfCarry halfCarryBit |||
        weigh carry carryBit :=
  rfl

section Bits

variable (byte : UInt8)

theorem and_zeroBit :
    byte &&& zeroBit = weigh (ofByte byte).zero zeroBit :=
  Byte.and_eq_weigh (show zeroBit.toNat = 2 ^ 7 from rfl) byte

theorem and_subtractBit :
    byte &&& subtractBit = weigh (ofByte byte).subtract subtractBit :=
  Byte.and_eq_weigh (show subtractBit.toNat = 2 ^ 6 from rfl) byte

theorem and_carryBit :
    byte &&& carryBit = weigh (ofByte byte).carry carryBit :=
  Byte.and_eq_weigh (show carryBit.toNat = 2 ^ 4 from rfl) byte

end Bits

/-- A byte is that of some flags if it tells these flags and its lower half is clear. -/
theorem eq_toByte_iff
    (byte : UInt8)
    (flags : Flags) :
    byte = flags.toByte ↔ ofByte byte = flags ∧ byte &&& 0x0F = 0 := by
  constructor
  · rintro rfl
    exact ⟨ofByte_toByte flags, flags.toByte_low⟩
  · rintro ⟨rfl, low⟩
    have halves : byte &&& 0xF0 ||| byte &&& 0x0F = byte := by
      rw [← Byte.and_or]
      exact UInt8.and_neg_one
    rw [toByte_ofByte]
    rw [low, UInt8.or_zero] at halves
    exact halves.symm

end Flags

open Flags

/-- What an operation on the accumulator assigns to the flag register. -/
def AluOp.flagByte
    (operation : AluOp)
    (result : ByteResult) :
    UInt8 :=
  let carries :=
    weigh result.flags.halfCarry halfCarryBit |||
      weigh result.flags.carry carryBit
  let raised :=
    match operation with
    | .add | .adc => carries
    | .sub | .sbc | .cp => subtractBit ||| carries
    | .and => halfCarryBit
    | .xor | .or => 0
  raised ||| weigh (result.value == 0) zeroBit

/-- What a displacement of the stack pointer assigns to the flag register. -/
def Alu.displacedFlagByte
    (base : UInt16)
    (displacement : UInt8) :
    UInt8 :=
  let flags := (displace base displacement).flags
  weigh flags.halfCarry halfCarryBit ||| weigh flags.carry carryBit

/-- The flag register after a regular instruction; most instructions do not assign to it. -/
def Regular.flagByte
    (start : Machine)
    (byte : UInt8) :
    Regular → UInt8
  | .addHl pair =>
      let sum :=
        Alu.addWords start.cpu.hl (start.cpu.getPair pair) (Flags.ofByte byte)
      byte &&& zeroBit ||| weigh sum.flags.halfCarry halfCarryBit |||
        weigh sum.flags.carry carryBit
  | .increment operand =>
      let result := Alu.increment (start.valueOf operand) (Flags.ofByte byte)
      byte &&& carryBit ||| weigh (result.value == 0) zeroBit |||
        weigh result.flags.halfCarry halfCarryBit
  | .decrement operand =>
      let result := Alu.decrement (start.valueOf operand) (Flags.ofByte byte)
      byte &&& carryBit ||| subtractBit |||
        weigh (result.value == 0) zeroBit |||
        weigh result.flags.halfCarry halfCarryBit
  | .alu operation operand =>
      operation.flagByte
        (Alu.compute operation start.cpu.a (start.valueOf operand)
          (Flags.ofByte byte).carry)
  | .aluImmediate operation =>
      operation.flagByte
        (Alu.compute operation start.cpu.a start.byteAhead
          (Flags.ofByte byte).carry)
  | .pop .af => Word.low start.wordOnStack &&& 0xF0
  | _ => byte

/-- The flag register after a prefixed instruction. -/
def Prefixed.flagByte
    (start : Machine)
    (byte : UInt8) :
    Prefixed → UInt8
  | .rotate rotation operand =>
      let shifted :=
        rotation.apply (start.valueOf operand) (Flags.ofByte byte).carry
      weigh (shifted.value == 0) zeroBit ||| weigh shifted.carry carryBit
  | .bit index operand =>
      byte &&& carryBit ||| halfCarryBit |||
        weigh (start.valueOf operand &&& mask index == 0) zeroBit
  | .reset _ _ | .set _ _ => byte

/-- The flag register after an irregular instruction. -/
def Irregular.flagByte
    (start : Machine)
    (byte : UInt8) :
    Irregular → UInt8
  | .rotateAccumulator rotation =>
      weigh (rotation.apply start.cpu.a (Flags.ofByte byte).carry).carry carryBit
  | .decimalAdjust =>
      let result := Alu.decimalAdjust start.cpu.a (Flags.ofByte byte)
      byte &&& subtractBit ||| weigh (result.value == 0) zeroBit |||
        weigh result.flags.carry carryBit
  | .complement =>
      byte &&& (zeroBit ||| carryBit) ||| subtractBit ||| halfCarryBit
  | .setCarry => byte &&& zeroBit ||| carryBit
  | .complementCarry =>
      byte &&& zeroBit ||| if (Flags.ofByte byte).carry then 0 else carryBit
  | .addSp | .loadHlSp =>
      Alu.displacedFlagByte start.cpu.sp start.byteAhead
  | .prefixed => start.prefixedAhead.flagByte start byte
  | _ => byte

/-- The flag register after an instruction whose opcode has been fetched. -/
def Instruction.flagByte
    (start : Machine)
    (byte : UInt8) :
    Instruction → UInt8
  | .regular instruction => instruction.flagByte start byte
  | .irregular instruction => instruction.flagByte start byte

/-- The byte that an operation assigns is that of the flags that it computes. -/
theorem AluOp.flagByte_compute
    (operation : AluOp)
    (accumulator value : UInt8)
    (carry : Bool) :
    operation.flagByte
        (Alu.compute operation accumulator value carry) =
      (Alu.compute operation accumulator value carry).flags.toByte := by
  cases operation <;>
    simp [flagByte, Alu.compute, Alu.add, Alu.sub, Alu.logic, toByte_mk]
      <;> ac_rfl

theorem Alu.displacedFlagByte_eq
    (base : UInt16)
    (displacement : UInt8) :
    displacedFlagByte base displacement =
      (displace base displacement).flags.toByte := by
  simp [displacedFlagByte, displace, toByte_mk]

theorem Cpu.flags_operating
    (operation : AluOp)
    (value : UInt8)
    (cpu : Cpu) :
    (cpu.operating operation value).flags =
      (Alu.compute operation cpu.a value cpu.flags.carry).flags := by
  cases operation <;> rfl

namespace Execution

theorem flags_assigning
    (execution : Execution)
    (operand : Operand)
    (value : UInt8) :
    (execution.assigning operand value).cpu.flags =
      execution.cpu.flags := by
  cases operand with
  | register name => cases name <;> rfl
  | memory => rfl

end Execution

/-- What is assigned to the byte is the byte of the flags that the instruction leaves. -/
theorem Regular.flagByte_eq
    (instruction : Regular)
    (start : Execution) :
    instruction.flagByte start.toMachine start.cpu.flags.toByte =
      (instruction.finish start).cpu.flags.toByte := by
  have unassigned (outside : instruction.footprint.flags = false) :
      start.cpu.flags.toByte =
        (instruction.finish start).cpu.flags.toByte :=
    (congrArg Flags.toByte
      ((instruction.finish_confined start).flags outside)).symm
  cases instruction with
  | addHl pair =>
      change
        _ =
          (Alu.addWords start.cpu.hl (start.cpu.getPair pair)
            start.cpu.flags).flags.toByte
      simp [flagByte, Alu.addWords, and_zeroBit, toByte_mk]
  | increment operand =>
      rw [finish, Execution.flags_assigning]
      change
        _ =
          (Alu.increment (start.valueOf operand)
            start.cpu.flags).flags.toByte
      simp [flagByte, Alu.increment, and_carryBit, toByte_mk]
      ac_rfl
  | decrement operand =>
      rw [finish, Execution.flags_assigning]
      change
        _ =
          (Alu.decrement (start.valueOf operand)
            start.cpu.flags).flags.toByte
      simp [flagByte, Alu.decrement, and_carryBit, toByte_mk]
      ac_rfl
  | alu operation operand =>
      have operated :=
        Cpu.flags_operating operation (start.valueOf operand)
          (start.reading operand).cpu
      rw [start.reading_cpu] at operated
      rw [flagByte, ofByte_toByte, AluOp.flagByte_compute, ← operated,
        ← start.reading_cpu operand]
      rfl
  | aluImmediate operation =>
      have operated :=
        Cpu.flags_operating operation start.byteAhead start.fetching.cpu
      rw [flagByte, ofByte_toByte, AluOp.flagByte_compute]
      exact congrArg Flags.toByte operated.symm
  | pop pair =>
      cases pair with
      -- Any byte may be popped; this is the one place where it has to be masked.
      | af => exact (toByte_ofByte _).symm
      | _ => exact unassigned rfl
  -- The flags are outside the footprints of the others.
  | _ => exact unassigned rfl

theorem Prefixed.flagByte_eq
    (instruction : Prefixed)
    (start : Execution) :
    instruction.flagByte start.toMachine start.cpu.flags.toByte =
      (instruction.finish start.fetching).cpu.flags.toByte := by
  have unassigned (outside : instruction.footprint.flags = false) :
      start.cpu.flags.toByte =
        (instruction.finish start.fetching).cpu.flags.toByte :=
    (congrArg Flags.toByte
      ((instruction.finish_confined start).flags outside)).symm
  have sameValue (operand : Operand) :
      start.fetching.valueOf operand = start.valueOf operand := by
    cases operand with
    | register name => exact Cpu.get_goingTo _ start.cpu name
    | memory => rfl
  cases instruction with
  | rotate rotation operand =>
      change
        _ =
          toByte
            { zero :=
                (rotation.apply (start.fetching.valueOf operand)
                    start.cpu.flags.carry).value ==
                  0
              subtract := false
              halfCarry := false
              carry :=
                (rotation.apply (start.fetching.valueOf operand)
                  start.cpu.flags.carry).carry }
      simp [flagByte, sameValue, toByte_mk]
  | bit index operand =>
      change
        _ =
          toByte
            { zero :=
                start.fetching.valueOf operand &&& mask index == 0
              subtract := false
              halfCarry := true
              carry := start.cpu.flags.carry }
      simp [flagByte, sameValue, and_carryBit, toByte_mk]
      ac_rfl
  | reset index operand => exact unassigned rfl
  | set index operand => exact unassigned rfl

theorem Irregular.flagByte_eq
    (instruction : Irregular)
    (start : Execution) :
    instruction.flagByte start.toMachine start.cpu.flags.toByte =
      (instruction.finish start).cpu.flags.toByte := by
  have unassigned
      (outside :
        (instruction.footprint start.toMachine).flags = false) :
      start.cpu.flags.toByte =
        (instruction.finish start).cpu.flags.toByte :=
    (congrArg Flags.toByte
      ((instruction.finish_confined start).flags outside)).symm
  cases instruction with
  | rotateAccumulator rotation =>
      simp [flagByte, finish, Execution.changing, Cpu.rotating, Cpu.withFlags, toByte_mk]
  | decimalAdjust =>
      let adjusted := Alu.decimalAdjust start.cpu.a start.cpu.flags
      obtain ⟨zeroIff, subtract, halfCarry⟩ :=
        Alu.decimalAdjust_flags start.cpu.a start.cpu.flags
      have zero : adjusted.flags.zero = (adjusted.value == 0) :=
        Bool.eq_iff_iff.mpr (zeroIff.trans beq_iff_eq.symm)
      change
        _ =
          toByte
            ⟨adjusted.flags.zero, adjusted.flags.subtract,
              adjusted.flags.halfCarry, adjusted.flags.carry⟩
      rw [zero, subtract, halfCarry]
      simp [flagByte, and_subtractBit, toByte_mk]
      ac_rfl
  | complement =>
      change
        _ =
          toByte
            { start.cpu.flags with
              subtract := true
              halfCarry := true }
      simp [flagByte, Byte.and_or, and_zeroBit, and_carryBit, toByte_mk]
      ac_rfl
  | setCarry =>
      change
        _ =
          toByte
            { zero := start.cpu.flags.zero
              subtract := false
              halfCarry := false
              carry := true }
      simp [flagByte, and_zeroBit, toByte_mk]
  | complementCarry =>
      change
        _ =
          toByte
            { zero := start.cpu.flags.zero
              subtract := false
              halfCarry := false
              carry := !start.cpu.flags.carry }
      simp only [flagByte, ofByte_toByte, and_zeroBit, toByte_mk]
      cases start.cpu.flags.carry <;> simp
  | addSp | loadHlSp => exact Alu.displacedFlagByte_eq _ _
  | prefixed => exact start.prefixedAhead.flagByte_eq start
  -- The flags are outside the footprints of the others.
  | _ => exact unassigned rfl

theorem Instruction.flagByte_eq
    (instruction : Instruction)
    (start : Execution) :
    instruction.flagByte start.toMachine start.cpu.flags.toByte =
      (instruction.finish start).cpu.flags.toByte := by
  cases instruction with
  | regular regular => exact regular.flagByte_eq start
  | irregular irregular => exact irregular.flagByte_eq start

namespace Execution

/-- An interrupt leaves the flags alone. -/
theorem flags_offering
    (execution : Execution)
    (source : Interrupt) :
    (execution.offering source).cpu.flags = execution.cpu.flags := by
  unfold offering
  split
  · rw [(dispatched_dispatching execution source).cpu]
  · rfl

/-- What follows an instruction in a step leaves the flags alone. -/
theorem flags_settling
    (execution : Execution)
    (cost : Nat) :
    (execution.elapsing cost).settling.cpu.flags =
      execution.cpu.flags := by
  have latched (cpu : Cpu) : cpu.latchIme.flags = cpu.flags := by
    unfold Cpu.latchIme
    split
    · rfl
    · split <;> rfl
  have served (middle : Execution) :
      middle.serving.cpu.flags = middle.cpu.flags := by
    unfold serving
    split
    · rfl
    · exact flags_offering _ _
  exact (served (execution.elapsing cost)).trans (latched _)

end Execution

namespace Machine

/-- The flag register after the next instruction; one that fails assigns nothing to it. -/
def flagByteExecuted
    (machine : Machine)
    (byte : UInt8) :
    UInt8 :=
  match machine.perform .executeNext, machine.nextInstruction? with
  | .ok _ _, some instruction =>
      instruction.flagByte machine.behindOpcode byte
  | _, _ => byte

/-- The flag register after a step. -/
def flagByteStepped
    (machine : Machine)
    (byte : UInt8) :
    UInt8 :=
  if machine.cpu.halted then byte else machine.flagByteExecuted byte

/-- The byte tells the flags of the machine, and its lower half is clear. -/
structure HoldsFlags
    (machine : Machine)
    (byte : UInt8) :
    Prop where
  flags : Flags.ofByte byte = machine.cpu.flags
  low : byte &&& 0x0F = 0

theorem holdsFlags_iff
    {machine : Machine}
    {byte : UInt8} :
    machine.HoldsFlags byte ↔ byte = machine.cpu.flags.toByte := by
  rw [eq_toByte_iff]
  exact ⟨fun holds => ⟨holds.flags, holds.low⟩, fun both => ⟨both.1, both.2⟩⟩

/-- After a step the flags are those that its instruction has left. -/
theorem flags_step (machine : Machine) :
    machine.step.execution.cpu.flags =
      (machine.perform .executeOrIdle).execution.cpu.flags := by
  cases executes : machine.perform .executeOrIdle with
  | error fault executed =>
      rw [step_of_not_executes executes]
      rfl
  | ok cost executed =>
      rw [step_of_executes executes]
      split <;> exact executed.flags_settling cost

namespace HoldsFlags

variable
  {machine other : Machine}
  {byte : UInt8}

theorem of_same
    (holds : machine.HoldsFlags byte)
    (same : other.cpu.flags = machine.cpu.flags) :
    other.HoldsFlags byte where
  flags := holds.flags.trans same.symm
  low := holds.low

/-- An instruction that succeeds assigns what is right, and one that fails nothing. -/
theorem executed (holds : machine.HoldsFlags byte) :
    (machine.perform .executeNext).execution.toMachine.HoldsFlags
      (machine.flagByteExecuted byte) := by
  unfold flagByteExecuted
  cases performed : machine.perform .executeNext with
  | error fault final =>
      have spared := (executeNext_error_spares performed).2.1
      have same : final.cpu.flags = machine.cpu.flags := by rw [spared]
      exact holds.of_same same
  | ok cost final =>
      obtain ⟨opcode, instruction, carries⟩ := executeNext_carries performed
      have next : machine.nextInstruction? = some instruction := by
        rw [nextInstruction?, Bus.byteAt_of_read carries.found]
        exact carries.decoded
      have assigned :=
        instruction.flagByte_eq ((Execution.start machine).beginning opcode)
      rw [← carries.final_eq] at assigned
      rw [next, holdsFlags_iff, holdsFlags_iff.mp holds]
      exact assigned

/-- A step changes the flags only by what it executes. -/
theorem stepped (holds : machine.HoldsFlags byte) :
    machine.step.execution.toMachine.HoldsFlags
      (machine.flagByteStepped byte) := by
  unfold flagByteStepped
  split
  case isTrue halted =>
    have same := machine.flags_step
    rw [executeOrIdle_of_halted halted] at same
    exact holds.of_same same
  case isFalse running =>
    have same := machine.flags_step
    rw [executeOrIdle_of_awake (Bool.eq_false_iff.mpr running)] at same
    exact holds.executed.of_same same

theorem interrupted
    (holds : machine.HoldsFlags byte)
    (source : Interrupt) :
    (machine.perform (.interrupt source)).execution.toMachine.HoldsFlags
      byte := by
  rw [execution_interrupt]
  exact holds.of_same (Execution.flags_offering _ source)

end HoldsFlags

theorem holdsFlags_powerOn (cartridge : Cartridge) :
    (powerOn cartridge).HoldsFlags 0xB0 :=
  ⟨rfl, rfl⟩

/-- Setting the flags from outside drops the lower half of the byte. -/
theorem holdsFlags_withFlags
    (machine : Machine)
    (value : UInt8) :
    HoldsFlags
      { machine with cpu := machine.cpu.withFlags (Flags.ofByte value) }
      (value &&& 0xF0) := by
  rw [holdsFlags_iff]
  exact (toByte_ofByte value).symm

/-- A machine since its start, and the byte that its flag register holds. -/
inductive FlagHistory : Machine → UInt8 → Prop where
  | powerOn (cartridge : Cartridge) :
      FlagHistory (.powerOn cartridge) 0xB0
  | step
      {machine : Machine}
      {byte : UInt8}
      (before : FlagHistory machine byte) :
      FlagHistory machine.step.execution.toMachine
        (machine.flagByteStepped byte)
  | interrupt
      {machine : Machine}
      {byte : UInt8}
      (before : FlagHistory machine byte)
      (source : Interrupt) :
      FlagHistory
        (machine.perform (.interrupt source)).execution.toMachine byte
  | setFlags
      {machine : Machine}
      {byte : UInt8}
      (before : FlagHistory machine byte)
      (value : UInt8) :
      FlagHistory
        { machine with cpu := machine.cpu.withFlags (Flags.ofByte value) }
        (value &&& 0xF0)
  /-- Everything beside the flags can be set from outside. -/
  | set
      {machine other : Machine}
      {byte : UInt8}
      (before : FlagHistory machine byte)
      (same : other.cpu.flags = machine.cpu.flags) :
      FlagHistory other byte

theorem FlagHistory.holds
    {machine : Machine}
    {byte : UInt8}
    (history : FlagHistory machine byte) :
    machine.HoldsFlags byte := by
  induction history with
  | powerOn cartridge => exact holdsFlags_powerOn cartridge
  | step _ inductionHypothesis => exact inductionHypothesis.stepped
  | interrupt _ source inductionHypothesis =>
      exact inductionHypothesis.interrupted source
  | @setFlags machine _ _ value _ =>
      exact machine.holdsFlags_withFlags value
  | set _ same inductionHypothesis =>
      exact inductionHypothesis.of_same same

/-- A word whose low byte is that of flags has its lowest half byte clear. -/
theorem lowestHalf_ofBytes
    {byte : UInt8}
    (low : byte &&& 0x0F = 0)
    (highByte : UInt8) :
    Word.ofBytes highByte byte &&& 0x000F = 0 := by
  have highMask : Word.high 0x000F = 0 := rfl
  have lowMask : Word.low 0x000F = 0x0F := rfl
  rw [← Word.ofBytes_high_low (Word.ofBytes highByte byte &&& 0x000F),
    Word.high_and, Word.low_and, highMask, lowMask, Word.low_ofBytes, low,
    UInt8.and_zero]
  rfl

/--
The lower half of the flag register is clear at power-on, and stays so through steps that
succeed or fail, interrupts and whatever is set from outside.  So the accumulator and the
flags are pushed as a word whose lowest half byte is clear.
-/
theorem flag_register_low_half_clear :
    (∀ cartridge, (powerOn cartridge).HoldsFlags 0xB0) ∧
      (∀ (machine : Machine) (byte : UInt8),
        machine.HoldsFlags byte →
          machine.step.execution.toMachine.HoldsFlags
            (machine.flagByteStepped byte)) ∧
      (∀ (machine : Machine) (byte : UInt8) (source : Interrupt),
        machine.HoldsFlags byte →
          (machine.perform (.interrupt source)).execution.toMachine.HoldsFlags
            byte) ∧
      (∀ (machine : Machine) (value : UInt8),
        HoldsFlags
          { machine with cpu := machine.cpu.withFlags (Flags.ofByte value) }
          (value &&& 0xF0)) ∧
      (∀ (machine : Machine) (byte : UInt8),
        FlagHistory machine byte →
          byte &&& 0x0F = 0 ∧
            byte = machine.cpu.flags.toByte ∧
            (machine.Begins (.regular (.push .af)) →
              ∃ cost final,
                machine.perform .executeNext = .ok cost final ∧
                  final.bus =
                    machine.bus.pushed machine.cpu.sp
                      (Word.ofBytes machine.cpu.a byte) ∧
                  Word.ofBytes machine.cpu.a byte &&& 0x000F = 0)) := by
  refine
    ⟨holdsFlags_powerOn, fun _ _ => HoldsFlags.stepped,
      fun _ _ source holds => holds.interrupted source,
      holdsFlags_withFlags, ?_⟩
  intro machine byte history
  have holds := history.holds
  have sameByte := holdsFlags_iff.mp holds
  refine ⟨holds.low, sameByte, fun begins => ?_⟩
  obtain ⟨cost, final, succeeded, -, pushed⟩ := push_succeeds begins
  refine ⟨cost, final, succeeded, ?_, lowestHalf_ofBytes holds.low _⟩
  rw [sameByte]
  exact pushed

/-- A machine that pops the word 0x12FF into the accumulator and the flags and pushes it. -/
def popping : Machine where
  cpu :=
    { Cpu.powerOn with
      pc := 0xFF80
      sp := 0xFFC0 }
  bus :=
    { Bus.powerOn Cartridge.blank with
      highRam :=
        Vector.ofFn fun place =>
          match place.val with
          | 0x00 => 0xF1
          | 0x01 => 0xF5
          | 0x40 => 0xFF
          | 0x41 => 0x12
          | _ => 0 }

/-- The machine once the word has been popped. -/
def popped : Machine :=
  popping.step.execution.toMachine

/-- What is pushed is 0x12F0. -/
theorem flag_register_low_half_clear_popping :
    popped.HoldsFlags 0xF0 ∧
      (popped.perform (.interrupt .timer)).execution.toMachine.HoldsFlags
        0xF0 ∧
      ∃ cost final,
        popped.perform .executeNext = .ok cost final ∧
          final.bus = popped.bus.pushed 0xFFC2 0x12F0 ∧
          (0x12F0 : UInt16) &&& 0x000F = 0 := by
  obtain ⟨start, step, interrupt, -, invariant⟩ :=
    flag_register_low_half_clear
  have before : popping.HoldsFlags 0xB0 :=
    (start Cartridge.blank).of_same rfl
  have isByte : popping.flagByteStepped 0xB0 = 0xF0 := by decide +kernel
  have after : popped.HoldsFlags 0xF0 := by
    rw [← isByte]
    exact step popping 0xB0 before
  have history : FlagHistory popped 0xF0 := by
    rw [← isByte]
    exact .step (.set (.powerOn Cartridge.blank) rfl)
  have pushes : popped.Begins (.regular (.push .af)) :=
    ⟨0xF5, by decide +kernel, rfl⟩
  have pointer : popped.cpu.sp = 0xFFC2 := by decide +kernel
  have accumulator : popped.cpu.a = 0x12 := by decide +kernel
  obtain ⟨-, -, pushed⟩ := invariant popped 0xF0 history
  rw [pointer, accumulator] at pushed
  exact ⟨after, interrupt popped 0xF0 .timer after, pushed pushes⟩

end Machine

end Dmg
