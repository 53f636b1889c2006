import Dmg.Cpu.Arithmetic

namespace Dmg

/-!
# The fields of an opcode and what they name

An opcode is read as three fields: two bits `x`, three bits `y` and three bits `z`,
from the highest to the lowest.  The middle field is also split into two bits `p`
and one bit `q`.  Eleven opcodes stand for no instruction.
-/

/-- The first byte of an instruction. -/
abbrev Opcode := UInt8

namespace Opcode

/-- Bits 6 and 7. -/
def x (opcode : Opcode) : UInt8 :=
  opcode >>> 6

/-- Bits 3 to 5. -/
def y (opcode : Opcode) : UInt8 :=
  (opcode >>> 3) &&& 0x07

/-- Bits 0 to 2. -/
def z (opcode : Opcode) : UInt8 :=
  opcode &&& 0x07

/-- Bits 4 and 5. -/
def p (opcode : Opcode) : UInt8 :=
  y opcode >>> 1

/-- Bit 3. -/
def q (opcode : Opcode) : UInt8 :=
  y opcode &&& 0x01

/-- The opcodes that stand for no instruction. -/
def holes : List Opcode :=
  [0xD3, 0xDB, 0xDD, 0xE3, 0xE4, 0xEB, 0xEC, 0xED, 0xF4, 0xFC, 0xFD]

/-- Whether the opcode stands for no instruction. -/
def isHole (opcode : Opcode) : Bool :=
  holes.contains opcode

end Opcode

/-!
## Operands

Most opcodes are built from small fields, and each field has a table of what its
codes stand for: a byte operand, a register pair, an address register, an operation
or a condition.  The tables take the low bits of their code that they need, and have an
entry for every value of these, so that no code is out of range.
-/

/-- A byte operand: a register, or the byte in memory that HL points to. -/
inductive Operand where
  | register (register : Register)
  | memory
  deriving Repr, DecidableEq

namespace Operand

/-- The operand of a code of three bits. -/
def ofCode (code : UInt8) : Operand :=
  match code &&& 0x07 with
  | 0 => .register .b
  | 1 => .register .c
  | 2 => .register .d
  | 3 => .register .e
  | 4 => .register .h
  | 5 => .register .l
  | 6 => .memory
  | _ => .register .a

/-- The code of an operand. -/
def code : Operand → UInt8
  | .register .b => 0
  | .register .c => 1
  | .register .d => 2
  | .register .e => 3
  | .register .h => 4
  | .register .l => 5
  | .memory => 6
  | .register .a => 7

/-- Whether the operand lies in memory. -/
def isMemory : Operand → Bool
  | .register _ => false
  | .memory => true

/-- The one of two costs that fits where the operand lies. -/
def cost
    (operand : Operand)
    (inMemory inRegister : Nat) :
    Nat :=
  if operand.isMemory then inMemory else inRegister

end Operand

namespace Pair

/--
The register pair of a code of two bits.  It cannot fail to name one: the field `p` of an
opcode has no other bits, and the mask would drop them.
-/
def ofCode (code : UInt8) : Pair :=
  match code &&& 0x03 with
  | 0 => .bc
  | 1 => .de
  | 2 => .hl
  | _ => .sp

/-- The code of a register pair. -/
def code : Pair → UInt8
  | .bc => 0
  | .de => 1
  | .hl => 2
  | .sp => 3

end Pair

namespace StackPair

/-- The stacked register pair of a code of two bits, which likewise names one. -/
def ofCode (code : UInt8) : StackPair :=
  match code &&& 0x03 with
  | 0 => .bc
  | 1 => .de
  | 2 => .hl
  | _ => .af

/-- The code of a stacked register pair. -/
def code : StackPair → UInt8
  | .bc => 0
  | .de => 1
  | .hl => 2
  | .af => 3

end StackPair

/-- An address in a register pair, with what happens to HL after it is used. -/
inductive Pointer where
  | bc
  | de
  | hlIncrement
  | hlDecrement
  deriving Repr, DecidableEq

namespace Pointer

/-- The pointer of a code of two bits, which likewise names one. -/
def ofCode (code : UInt8) : Pointer :=
  match code &&& 0x03 with
  | 0 => .bc
  | 1 => .de
  | 2 => .hlIncrement
  | _ => .hlDecrement

/-- The code of a pointer. -/
def code : Pointer → UInt8
  | .bc => 0
  | .de => 1
  | .hlIncrement => 2
  | .hlDecrement => 3

end Pointer

namespace AluOp

/-- The operation of a code of three bits. -/
def ofCode (code : UInt8) : AluOp :=
  match code &&& 0x07 with
  | 0 => .add
  | 1 => .adc
  | 2 => .sub
  | 3 => .sbc
  | 4 => .and
  | 5 => .xor
  | 6 => .or
  | _ => .cp

end AluOp

namespace Rotation

/-- The rotation or shift of a code of three bits. -/
def ofCode (code : UInt8) : Rotation :=
  match code &&& 0x07 with
  | 0 => .rlc
  | 1 => .rrc
  | 2 => .rl
  | 3 => .rr
  | 4 => .sla
  | 5 => .sra
  | 6 => .swap
  | _ => .srl

end Rotation

/-- The condition of a jump, a call or a return. -/
inductive Condition where
  | notZero
  | zero
  | notCarry
  | carry
  deriving Repr, DecidableEq

namespace Condition

/-- The condition of a code of two bits. -/
def ofCode (code : UInt8) : Condition :=
  match code &&& 0x03 with
  | 0 => .notZero
  | 1 => .zero
  | 2 => .notCarry
  | _ => .carry

/-- Whether the flags meet the condition. -/
def holds
    (condition : Condition)
    (flags : Flags) :
    Bool :=
  match condition with
  | .notZero => !flags.zero
  | .zero => flags.zero
  | .notCarry => !flags.carry
  | .carry => flags.carry

end Condition

end Dmg
