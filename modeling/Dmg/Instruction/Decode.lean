import Dmg.Instruction.Operand

namespace Dmg

/-!
# The instructions and their opcodes

Loads, arithmetic and stack transfers form a grid over the fields of the opcode: one
field says what is done and the others name the operands.  These are the regular
instructions.
-/

/-- An instruction of the grid. -/
inductive Regular where
  /-- Load a pair with the word that follows. -/
  | loadPairImmediate (pair : Pair)
  /-- Add a pair to HL. -/
  | addHl (pair : Pair)
  /-- Load the accumulator from a pointer, or store it there. -/
  | loadIndirect (pointer : Pointer) (toAccumulator : Bool)
  | incrementPair (pair : Pair)
  | decrementPair (pair : Pair)
  | increment (operand : Operand)
  | decrement (operand : Operand)
  /-- Load an operand with the byte that follows. -/
  | loadImmediate (operand : Operand)
  | load (destination source : Operand)
  | alu (operation : AluOp) (operand : Operand)
  /-- Operate with the byte that follows. -/
  | aluImmediate (operation : AluOp)
  | pop (pair : StackPair)
  | push (pair : StackPair)
  /-- Call one of eight fixed addresses. -/
  | restart (vector : UInt16)
  deriving Repr, DecidableEq

namespace Regular

/--
The place of an opcode in the grid, if it has one.  The grid gives `load` from and to
memory a place that another instruction occupies.
-/
def ofOpcode? (opcode : Opcode) : Option Regular :=
  let y := Opcode.y opcode
  let z := Opcode.z opcode
  let p := Opcode.p opcode
  let q := Opcode.q opcode
  match Opcode.x opcode with
  | 0 =>
      match z with
      | 1 =>
          if q = 0 then
            some (.loadPairImmediate (.ofCode p))
          else
            some (.addHl (.ofCode p))
      | 2 => some (.loadIndirect (.ofCode p) (q == 1))
      | 3 =>
          if q = 0 then
            some (.incrementPair (.ofCode p))
          else
            some (.decrementPair (.ofCode p))
      | 4 => some (.increment (.ofCode y))
      | 5 => some (.decrement (.ofCode y))
      | 6 => some (.loadImmediate (.ofCode y))
      | _ => none
  | 1 => some (.load (.ofCode y) (.ofCode z))
  | 2 => some (.alu (.ofCode y) (.ofCode z))
  | _ =>
      match z with
      | 1 => if q = 0 then some (.pop (.ofCode p)) else none
      | 5 => if q = 0 then some (.push (.ofCode p)) else none
      | 6 => some (.aluImmediate (.ofCode y))
      | 7 => some (.restart (y.toUInt16 * 8))
      | _ => none

end Regular

/-!
## The irregular instructions

Jumps, calls and returns, the rotations of the accumulator, the instructions that
halt the processor or change its interrupt state, and the loads that take the page
0xFF00 or a whole address: each has an opcode of its own.
-/

/-- An instruction outside the grid. -/
inductive Irregular where
  | nop
  /-- Rotate the accumulator; of the flags only the carry can remain set. -/
  | rotateAccumulator (rotation : Rotation)
  /-- Store the stack pointer at the address that follows. -/
  | storeSp
  /-- Halt, skipping the byte that follows. -/
  | stop
  /-- Move the program counter by the displacement that follows. -/
  | jumpRelative
  | jumpRelativeIf (condition : Condition)
  | decimalAdjust
  | complement
  | setCarry
  | complementCarry
  | halt
  | returnIf (condition : Condition)
  | jumpIf (condition : Condition)
  | jump
  | callIf (condition : Condition)
  | returnAlways
  /-- The instruction of the byte that follows. -/
  | prefixed
  | call
  /-- Return and ask for interrupts to be enabled. -/
  | returnEnable
  /-- Store the accumulator in the last page, at the offset that follows. -/
  | storeHigh
  /-- Store the accumulator in the last page, at the offset in C. -/
  | storeHighC
  | addSp
  | jumpHl
  /-- Store the accumulator at the address that follows. -/
  | storeDirect
  /-- Load the accumulator from the last page, at the offset that follows. -/
  | loadHigh
  /-- Load the accumulator from the last page, at the offset in C. -/
  | loadHighC
  | disableInterrupts
  /-- Load HL with the stack pointer moved by the displacement that follows. -/
  | loadHlSp
  | loadSpHl
  /-- Load the accumulator from the address that follows. -/
  | loadDirect
  | enableInterrupts
  deriving Repr, DecidableEq

namespace Irregular

/-- The condition in bits 3 and 4 of an opcode. -/
def conditionOf (opcode : Opcode) : Condition :=
  .ofCode (opcode >>> 3)

/-- The irregular instruction of an opcode, if it has one. -/
def ofOpcode? (opcode : Opcode) : Option Irregular :=
  match opcode with
  | 0x00 => some .nop
  | 0x07 => some (.rotateAccumulator .rlc)
  | 0x08 => some .storeSp
  | 0x0F => some (.rotateAccumulator .rrc)
  | 0x10 => some .stop
  | 0x17 => some (.rotateAccumulator .rl)
  | 0x18 => some .jumpRelative
  | 0x1F => some (.rotateAccumulator .rr)
  | 0x20 | 0x28 | 0x30 | 0x38 =>
      some (.jumpRelativeIf (conditionOf opcode))
  | 0x27 => some .decimalAdjust
  | 0x2F => some .complement
  | 0x37 => some .setCarry
  | 0x3F => some .complementCarry
  | 0x76 => some .halt
  | 0xC0 | 0xC8 | 0xD0 | 0xD8 => some (.returnIf (conditionOf opcode))
  | 0xC2 | 0xCA | 0xD2 | 0xDA => some (.jumpIf (conditionOf opcode))
  | 0xC3 => some .jump
  | 0xC4 | 0xCC | 0xD4 | 0xDC => some (.callIf (conditionOf opcode))
  | 0xC9 => some .returnAlways
  | 0xCB => some .prefixed
  | 0xCD => some .call
  | 0xD9 => some .returnEnable
  | 0xE0 => some .storeHigh
  | 0xE2 => some .storeHighC
  | 0xE8 => some .addSp
  | 0xE9 => some .jumpHl
  | 0xEA => some .storeDirect
  | 0xF0 => some .loadHigh
  | 0xF2 => some .loadHighC
  | 0xF3 => some .disableInterrupts
  | 0xF8 => some .loadHlSp
  | 0xF9 => some .loadSpHl
  | 0xFA => some .loadDirect
  | 0xFB => some .enableInterrupts
  | _ => none

end Irregular

/-!
## The prefixed instructions

After the opcode 0xCB a second byte names a rotation or a bit operation on any byte
operand.  Every second byte stands for an instruction.
-/

/-- An instruction that the second byte after the opcode 0xCB stands for. -/
inductive Prefixed where
  | rotate (rotation : Rotation) (operand : Operand)
  /-- Test a bit. -/
  | bit (index : UInt8) (operand : Operand)
  /-- Clear a bit. -/
  | reset (index : UInt8) (operand : Operand)
  /-- Set a bit. -/
  | set (index : UInt8) (operand : Operand)
  deriving Repr, DecidableEq

namespace Prefixed

/-- The instruction of a second byte. -/
def ofByte (byte : UInt8) : Prefixed :=
  let operand := Operand.ofCode (Opcode.z byte)
  match Opcode.x byte with
  | 0 => .rotate (.ofCode (Opcode.y byte)) operand
  | 1 => .bit (Opcode.y byte) operand
  | 2 => .reset (Opcode.y byte) operand
  | _ => .set (Opcode.y byte) operand

/-- The operand that the instruction works on. -/
def operand : Prefixed → Operand
  | .rotate _ operand => operand
  | .bit _ operand => operand
  | .reset _ operand => operand
  | .set _ operand => operand

end Prefixed

/-!
## Decoding

An opcode stands for an irregular instruction if it has one, and otherwise for the
one at its place in the grid.  Exactly the eleven holes stand for no instruction.
-/

/-- An instruction as its first byte tells it. -/
inductive Instruction where
  | irregular (instruction : Irregular)
  | regular (instruction : Regular)
  deriving Repr, DecidableEq

namespace Instruction

/-- The instruction of an opcode, if it stands for one. -/
def ofOpcode? (opcode : Opcode) : Option Instruction :=
  if Opcode.isHole opcode then
    none
  else
    match Irregular.ofOpcode? opcode with
    | some instruction => some (.irregular instruction)
    | none => (Regular.ofOpcode? opcode).map .regular

end Instruction

end Dmg
