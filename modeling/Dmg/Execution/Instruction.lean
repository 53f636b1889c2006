import Dmg.Execution.Basic
import Dmg.Instruction.Decode

namespace Dmg

/-!
# Executing instructions

The result of an execution is the number of cycles that the instruction takes.  An
operand in memory costs four cycles for each access to it.
-/

namespace Action

/-- The address in a pointer, with HL moved on if the pointer asks for it. -/
def followPointer (pointer : Pointer) : Action UInt16 := do
  let before ← cpu
  match pointer with
  | .bc => return before.bc
  | .de => return before.de
  | .hlIncrement =>
      modifyCpu (·.setHl (before.hl + 1))
      return before.hl
  | .hlDecrement =>
      modifyCpu (·.setHl (before.hl - 1))
      return before.hl

/-- Operate on the accumulator with a byte.  A comparison sets the flags only. -/
def operate
    (operation : AluOp)
    (value : UInt8) :
    Action Unit := do
  let before ← cpu
  let result :=
    Alu.compute operation before.a value before.flags.carry
  setFlags result.flags
  if operation ≠ .cp then
    setAccumulator result.value

end Action

namespace Regular

open Dmg.Action

/-- Execute a regular instruction; the result is its cost in cycles. -/
def execute : Regular → Action Nat
  | .loadPairImmediate pair => do
      let value ← fetchWord
      modifyCpu (·.setPair pair value)
      return 12
  | .addHl pair => do
      let before ← cpu
      let sum :=
        Alu.addWords before.hl (before.getPair pair) before.flags
      setFlags sum.flags
      modifyCpu (·.setHl sum.value)
      return 8
  | .loadIndirect pointer toAccumulator => do
      let address ← followPointer pointer
      if toAccumulator then
        setAccumulator (← readByte address)
      else
        writeByte address (← cpu).a
      return 8
  | .incrementPair pair => do
      modifyCpu fun cpu => cpu.setPair pair (cpu.getPair pair + 1)
      return 8
  | .decrementPair pair => do
      modifyCpu fun cpu => cpu.setPair pair (cpu.getPair pair - 1)
      return 8
  | .increment operand => do
      let value ← readOperand operand
      let result := Alu.increment value (← cpu).flags
      setFlags result.flags
      writeOperand operand result.value
      return operand.cost 12 4
  | .decrement operand => do
      let value ← readOperand operand
      let result := Alu.decrement value (← cpu).flags
      setFlags result.flags
      writeOperand operand result.value
      return operand.cost 12 4
  | .loadImmediate operand => do
      let value ← fetchByte
      writeOperand operand value
      return operand.cost 12 8
  | .load destination source => do
      let value ← readOperand source
      writeOperand destination value
      return max (destination.cost 8 4) (source.cost 8 4)
  | .alu operation operand => do
      let value ← readOperand operand
      operate operation value
      return operand.cost 8 4
  | .aluImmediate operation => do
      let value ← fetchByte
      operate operation value
      return 8
  | .pop pair => do
      let value ← popWord
      modifyCpu (·.setStackPair pair value)
      return 12
  | .push pair => do
      pushWord ((← cpu).getStackPair pair)
      return 16
  | .restart vector => do
      pushWord (← cpu).pc
      jumpTo vector
      return 16

end Regular

/-!
## Executing the prefixed instructions

The operand is read, changed and written back, except that testing a bit writes
nothing.
-/

namespace Prefixed

open Dmg.Action

/-- The byte with a single bit set. -/
def mask (index : UInt8) : UInt8 :=
  1 <<< index

/-- Execute a prefixed instruction; the result is its cost in cycles. -/
def execute : Prefixed → Action Nat
  | .rotate rotation operand => do
      let value ← readOperand operand
      let shifted := rotation.apply value (← cpu).flags.carry
      writeOperand operand shifted.value
      setFlags
        { zero := shifted.value == 0
          subtract := false
          halfCarry := false
          carry := shifted.carry }
      return operand.cost 16 8
  | .bit index operand => do
      let value ← readOperand operand
      setFlags
        { zero := value &&& mask index == 0
          subtract := false
          halfCarry := true
          carry := (← cpu).flags.carry }
      return operand.cost 12 8
  | .reset index operand => do
      let value ← readOperand operand
      writeOperand operand (value &&& ~~~mask index)
      return operand.cost 16 8
  | .set index operand => do
      let value ← readOperand operand
      writeOperand operand (value ||| mask index)
      return operand.cost 16 8

end Prefixed

/-!
## Executing the irregular instructions

A conditional jump, call or return fetches its operand in any case and costs more if
the condition holds.
-/

namespace Action

/-- Whether the flags meet a condition now. -/
def test (condition : Condition) : Action Bool := do
  return condition.holds (← cpu).flags

/-- Move the program counter by a displacement. -/
def jumpBy (displacement : UInt8) : Action Unit := do
  jumpTo ((← cpu).pc + Word.ofDisplacement displacement)

/-- Push the address of the next instruction and go to another. -/
def callTo (address : UInt16) : Action Unit := do
  pushWord (← cpu).pc
  jumpTo address

/-- Go to the address on top of the stack. -/
def returnToCaller : Action Unit := do
  jumpTo (← popWord)

/-- Rotate the accumulator; the zero flag is cleared whatever the result. -/
def rotateAccumulator (rotation : Rotation) : Action Unit := do
  let before ← cpu
  let shifted := rotation.apply before.a before.flags.carry
  setAccumulator shifted.value
  setFlags
    { zero := false
      subtract := false
      halfCarry := false
      carry := shifted.carry }

/-- The address in the last page with the given offset. -/
def highPage (offset : UInt8) : UInt16 :=
  0xFF00 ||| offset.toUInt16

end Action

namespace Irregular

open Dmg.Action

/-- Execute an irregular instruction; the result is its cost in cycles. -/
def execute : Irregular → Action Nat
  | .nop =>
      return 4
  | .rotateAccumulator rotation => do
      Action.rotateAccumulator rotation
      return 4
  | .storeSp => do
      let address ← fetchWord
      let value := (← cpu).sp
      writeByte address (Word.low value)
      writeByte (address + 1) (Word.high value)
      return 20
  | .stop => do
      let _ ← fetchByte
      record (.stop ((← cpu).pc - 2))
      modifyCpu fun cpu => { cpu with halted := true }
      return 4
  | .jumpRelative => do
      jumpBy (← fetchByte)
      return 12
  | .jumpRelativeIf condition => do
      let displacement ← fetchByte
      if ← test condition then
        jumpBy displacement
        return 12
      else
        return 8
  | .decimalAdjust => do
      let before ← cpu
      let result := Alu.decimalAdjust before.a before.flags
      setAccumulator result.value
      setFlags result.flags
      return 4
  | .complement => do
      modifyCpu fun cpu =>
        { cpu with
          a := ~~~cpu.a
          flags :=
            { cpu.flags with
              subtract := true
              halfCarry := true } }
      return 4
  | .setCarry => do
      let before := (← cpu).flags
      setFlags
        { zero := before.zero
          subtract := false
          halfCarry := false
          carry := true }
      return 4
  | .complementCarry => do
      let before := (← cpu).flags
      setFlags
        { zero := before.zero
          subtract := false
          halfCarry := false
          carry := !before.carry }
      return 4
  | .halt => do
      modifyCpu fun cpu => { cpu with halted := true }
      return 4
  | .returnIf condition => do
      if ← test condition then
        returnToCaller
        return 20
      else
        return 8
  | .jumpIf condition => do
      let address ← fetchWord
      if ← test condition then
        jumpTo address
        return 16
      else
        return 12
  | .jump => do
      jumpTo (← fetchWord)
      return 16
  | .callIf condition => do
      let address ← fetchWord
      if ← test condition then
        callTo address
        return 24
      else
        return 12
  | .returnAlways => do
      returnToCaller
      return 16
  | .prefixed => do
      (Prefixed.ofByte (← fetchByte)).execute
  | .call => do
      callTo (← fetchWord)
      return 24
  | .returnEnable => do
      returnToCaller
      modifyCpu (·.requestIme true)
      return 16
  | .storeHigh => do
      let offset ← fetchByte
      writeByte (highPage offset) (← cpu).a
      return 12
  | .storeHighC => do
      let before ← cpu
      writeByte (highPage before.c) before.a
      return 8
  | .addSp => do
      let displacement ← fetchByte
      let moved := Alu.displace (← cpu).sp displacement
      setFlags moved.flags
      moveStack moved.value
      return 16
  | .jumpHl => do
      jumpTo (← cpu).hl
      return 4
  | .storeDirect => do
      let address ← fetchWord
      writeByte address (← cpu).a
      return 16
  | .loadHigh => do
      let offset ← fetchByte
      setAccumulator (← readByte (highPage offset))
      return 12
  | .loadHighC => do
      setAccumulator (← readByte (highPage (← cpu).c))
      return 8
  | .disableInterrupts => do
      modifyCpu (·.requestIme false)
      return 4
  | .loadHlSp => do
      let displacement ← fetchByte
      let moved := Alu.displace (← cpu).sp displacement
      setFlags moved.flags
      modifyCpu (·.setHl moved.value)
      return 12
  | .loadSpHl => do
      moveStack (← cpu).hl
      return 8
  | .loadDirect => do
      let address ← fetchWord
      setAccumulator (← readByte address)
      return 16
  | .enableInterrupts => do
      modifyCpu (·.requestIme true)
      return 4

end Irregular

/-!
## Executing one instruction

The opcode at the program counter is fetched and its instruction executed.  A byte
that stands for no instruction is a fault, which leaves the program counter behind the
byte.
-/

namespace Instruction

/-- Execute an instruction; the result is its cost in cycles. -/
def execute : Instruction → Action Nat
  | .irregular instruction => instruction.execute
  | .regular instruction => instruction.execute

end Instruction

namespace Action

/-- Fetch the next opcode and execute its instruction; the result is its cost. -/
def executeNext : Action Nat := do
  let address := (← cpu).pc
  let opcode ← fetchByte
  record (.instruction address opcode (← cpu))
  match Instruction.ofOpcode? opcode with
  | some instruction => instruction.execute
  | none => throw (.unimplementedOpcode opcode address)

end Action

end Dmg
