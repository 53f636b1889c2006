import Dmg.Cpu.Basic

namespace Dmg

/-!
# Arithmetic and logic

The eight operations on the accumulator, the decimal adjustment, the shifts and the
additions on words.  Each says what it computes and which flags it leaves.
-/

/-- The operations of the accumulator with a byte. -/
inductive AluOp where
  | add
  | adc
  | sub
  | sbc
  | and
  | xor
  | or
  | cp
  deriving Repr, DecidableEq

/-- A byte that has been computed and the flags that go with it. -/
structure ByteResult where
  value : UInt8
  flags : Flags
  deriving Repr, DecidableEq

namespace Alu

/-- The sum of two bytes and a carry. -/
def add
    (left right : UInt8)
    (carryIn : Bool) :
    ByteResult :=
  let value := left + right + carryIn.toUInt8
  { value := value
    flags :=
      { zero := value == 0
        subtract := false
        halfCarry :=
          0x0F < left.toNat % 16 + right.toNat % 16 + carryIn.toNat
        carry := 0xFF < left.toNat + right.toNat + carryIn.toNat } }

/-- The difference of two bytes less a borrow. -/
def sub
    (left right : UInt8)
    (borrowIn : Bool) :
    ByteResult :=
  let value := left - right - borrowIn.toUInt8
  { value := value
    flags :=
      { zero := value == 0
        subtract := true
        halfCarry :=
          left.toNat % 16 < right.toNat % 16 + borrowIn.toNat
        carry := left.toNat < right.toNat + borrowIn.toNat } }

/-- A bitwise result, which clears the carry and fixes the half carry. -/
def logic
    (value : UInt8)
    (halfCarry : Bool) :
    ByteResult where
  value := value
  flags :=
    { zero := value == 0
      subtract := false
      halfCarry := halfCarry
      carry := false }

/-- The result of an operation on the accumulator's value, a byte and the carry. -/
def compute
    (operation : AluOp)
    (accumulator value : UInt8)
    (carry : Bool) :
    ByteResult :=
  match operation with
  | .add => add accumulator value false
  | .adc => add accumulator value carry
  | .sub => sub accumulator value false
  | .sbc => sub accumulator value carry
  | .and => logic (accumulator &&& value) true
  | .xor => logic (accumulator ^^^ value) false
  | .or => logic (accumulator ||| value) false
  | .cp => sub accumulator value false

/-- The successor of a byte; the carry flag is kept. -/
def increment
    (value : UInt8)
    (flags : Flags) :
    ByteResult :=
  let result := value + 1
  { value := result
    flags :=
      { zero := result == 0
        subtract := false
        halfCarry := value.toNat % 16 == 0x0F
        carry := flags.carry } }

/-- The predecessor of a byte; the carry flag is kept. -/
def decrement
    (value : UInt8)
    (flags : Flags) :
    ByteResult :=
  let result := value - 1
  { value := result
    flags :=
      { zero := result == 0
        subtract := true
        halfCarry := value.toNat % 16 == 0
        carry := flags.carry } }

/--
Correct a byte to two decimal digits after an addition.  The high digit is corrected
first, and the low digit is judged on the byte so corrected.
-/
def adjustSum
    (value : UInt8)
    (flags : Flags) :
    ByteResult :=
  let high := flags.carry || decide (0x99 < value)
  let highCorrected := if high then value + 0x60 else value
  let low := flags.halfCarry || decide (0x09 < highCorrected &&& 0x0F)
  let result := if low then highCorrected + 0x06 else highCorrected
  { value := result
    flags :=
      { zero := result == 0
        subtract := false
        halfCarry := false
        carry := high } }

/-- Correct a byte to two decimal digits after a subtraction. -/
def adjustDifference
    (value : UInt8)
    (flags : Flags) :
    ByteResult :=
  let highCorrected := if flags.carry then value - 0x60 else value
  let result :=
    if flags.halfCarry then highCorrected - 0x06 else highCorrected
  { value := result
    flags :=
      { zero := result == 0
        subtract := true
        halfCarry := false
        carry := flags.carry } }

/-- Correct a byte to two decimal digits after the operation that the flags tell. -/
def decimalAdjust
    (value : UInt8)
    (flags : Flags) :
    ByteResult :=
  if flags.subtract then
    adjustDifference value flags
  else
    adjustSum value flags

/-- A word that has been computed and the flags that go with it. -/
structure WordResult where
  value : UInt16
  flags : Flags
  deriving Repr, DecidableEq

/-- The sum of two words, with the carries out of bits 11 and 15; zero is kept. -/
def addWords
    (left right : UInt16)
    (flags : Flags) :
    WordResult where
  value := left + right
  flags :=
    { zero := flags.zero
      subtract := false
      halfCarry := 0x0FFF < left.toNat % 0x1000 + right.toNat % 0x1000
      carry := 0xFFFF < left.toNat + right.toNat }

/--
A word moved by a signed displacement.  The carries are those out of bits 3 and 7 of
the unsigned sum of the low bytes, also when the displacement is negative.
-/
def displace
    (base : UInt16)
    (displacement : UInt8) :
    WordResult where
  value := base + Word.ofDisplacement displacement
  flags :=
    { zero := false
      subtract := false
      halfCarry := 0x0F < base.toNat % 16 + displacement.toNat % 16
      carry := 0xFF < base.toNat % 256 + displacement.toNat }

end Alu

/-- The rotations and shifts of a byte. -/
inductive Rotation where
  | rlc
  | rrc
  | rl
  | rr
  | sla
  | sra
  | swap
  | srl
  deriving Repr, DecidableEq

namespace Rotation

/-- A byte that has been shifted and the bit that was shifted out. -/
structure Shifted where
  value : UInt8
  carry : Bool
  deriving Repr, DecidableEq

/-- The lowest bit of a byte. -/
def lowBit (value : UInt8) : Bool :=
  value &&& 0x01 != 0

/-- The highest bit of a byte. -/
def highBit (value : UInt8) : Bool :=
  value &&& 0x80 != 0

/-- A byte shifted left by one place, with the lowest bit as given. -/
def shiftLeft
    (value : UInt8)
    (entering : Bool) :
    Shifted where
  value := (value <<< 1) ||| entering.toUInt8
  carry := highBit value

/-- A byte shifted right by one place, with the highest bit as given. -/
def shiftRight
    (value : UInt8)
    (entering : Bool) :
    Shifted where
  value := (value >>> 1) ||| (entering.toUInt8 <<< 7)
  carry := lowBit value

/-- The halves of a byte exchanged; nothing is shifted out. -/
def swapHalves (value : UInt8) : Shifted where
  value := (value <<< 4) ||| (value >>> 4)
  carry := false

/-- The effect of a rotation or shift on a byte, given the carry flag. -/
def apply
    (rotation : Rotation)
    (value : UInt8)
    (carry : Bool) :
    Shifted :=
  match rotation with
  | .rlc => shiftLeft value (highBit value)
  | .rrc => shiftRight value (lowBit value)
  | .rl => shiftLeft value carry
  | .rr => shiftRight value carry
  | .sla => shiftLeft value false
  | .sra => shiftRight value (highBit value)
  | .swap => swapHalves value
  | .srl => shiftRight value false

end Rotation

end Dmg
