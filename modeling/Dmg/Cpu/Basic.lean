import Dmg.Text.Numeral

namespace Dmg

/-!
# The state of the processor

Registers and memory cells hold bytes; addresses and register pairs hold words.
A word is written as its high byte followed by its low byte, whichever order
the two bytes have in memory.
-/

namespace Word

/-- Bits 8 to 15 of a word. -/
def high (word : UInt16) : UInt8 :=
  (word >>> 8).toUInt8

/-- Bits 0 to 7 of a word. -/
def low (word : UInt16) : UInt8 :=
  word.toUInt8

/-- The word with the given high and low byte. -/
def ofBytes (highByte lowByte : UInt8) : UInt16 :=
  (highByte.toUInt16 <<< 8) ||| lowByte.toUInt16

/--
A byte read as a two's-complement displacement and widened to a word, so that
adding the word moves an address forwards or backwards by -128 to 127.
-/
def ofDisplacement (displacement : UInt8) : UInt16 :=
  displacement.toInt8.toInt16.toUInt16

/-- A word is 256 times its high byte plus its low byte. -/
theorem toNat_ofBytes (highByte lowByte : UInt8) :
    (ofBytes highByte lowByte).toNat = 256 * highByte.toNat + lowByte.toNat := by
  have highBound := highByte.toNat_lt
  have lowBound := lowByte.toNat_lt
  have joined :=
    Nat.two_pow_add_eq_or_of_lt (i := 8) lowBound highByte.toNat
  simp only [ofBytes, UInt16.toNat_or, UInt16.toNat_shiftLeft,
    UInt8.toNat_toUInt16, UInt16.toNat_ofNat, Nat.shiftLeft_eq,
    Nat.reducePow, Nat.reduceMod] at joined ⊢
  rw [Nat.mod_eq_of_lt (by omega), Nat.mul_comm, ← joined]

/-- The high byte of a joined word is the byte it was joined from. -/
@[simp]
theorem high_ofBytes (highByte lowByte : UInt8) :
    high (ofBytes highByte lowByte) = highByte := by
  apply UInt8.toNat_inj.mp
  have lowBound := lowByte.toNat_lt
  have highBound := highByte.toNat_lt
  simp only [high, UInt16.toNat_toUInt8, UInt16.toNat_shiftRight,
    toNat_ofBytes, UInt16.toNat_ofNat, Nat.reducePow, Nat.reduceMod,
    Nat.shiftRight_eq_div_pow]
  omega

/-- The low byte of a joined word is the byte it was joined from. -/
@[simp]
theorem low_ofBytes (highByte lowByte : UInt8) :
    low (ofBytes highByte lowByte) = lowByte := by
  apply UInt8.toNat_inj.mp
  have lowBound := lowByte.toNat_lt
  simp only [low, UInt16.toNat_toUInt8, toNat_ofBytes]
  omega

/-- Splitting a word and joining its bytes gives the word back. -/
@[simp]
theorem ofBytes_high_low (word : UInt16) :
    ofBytes (high word) (low word) = word := by
  apply UInt16.toNat_inj.mp
  have bound := word.toNat_lt
  rw [toNat_ofBytes]
  simp only [high, low, UInt16.toNat_toUInt8, UInt16.toNat_shiftRight,
    UInt16.toNat_ofNat, Nat.reducePow, Nat.reduceMod,
    Nat.shiftRight_eq_div_pow]
  omega

end Word

/-!
## Condition flags

The four flags are kept as truth values.  As a byte they fill the high half; the low
half of the byte has no storage and always reads as zero.
-/

/-- The flags of the processor. -/
structure Flags where
  zero : Bool
  /-- Whether the last addition or subtraction was a subtraction. -/
  subtract : Bool
  /-- The carry or borrow between the halves of a byte. -/
  halfCarry : Bool
  carry : Bool
  deriving Repr, DecidableEq

namespace Flags

/-- A byte with one bit set if the flag is. -/
def weigh
    (flag : Bool)
    (bit : UInt8) :
    UInt8 :=
  if flag then bit else 0

/-- The flags as a byte. -/
def toByte (flags : Flags) : UInt8 :=
  weigh flags.zero 0x80 ||| weigh flags.subtract 0x40 |||
    weigh flags.halfCarry 0x20 ||| weigh flags.carry 0x10

/-- The flags in the high half of a byte; the low half is dropped. -/
def ofByte (byte : UInt8) : Flags where
  zero := byte &&& 0x80 != 0
  subtract := byte &&& 0x40 != 0
  halfCarry := byte &&& 0x20 != 0
  carry := byte &&& 0x10 != 0

/-- Flags are read back as they were stored. -/
@[simp]
theorem ofByte_toByte (flags : Flags) :
    ofByte flags.toByte = flags := by
  obtain ⟨zero, subtract, halfCarry, carry⟩ := flags
  cases zero <;> cases subtract <;> cases halfCarry <;> cases carry <;> rfl

/-- The low half of the byte is zero. -/
theorem toByte_low (flags : Flags) :
    flags.toByte &&& 0x0F = 0 := by
  obtain ⟨zero, subtract, halfCarry, carry⟩ := flags
  cases zero <;> cases subtract <;> cases halfCarry <;> cases carry <;> rfl

end Flags

/-!
## The processor's registers

Seven byte registers, the flags, a stack pointer and a program counter, and beside
them the state that decides whether the processor runs and whether it can be
interrupted.  Enabling or disabling interrupts is a request that waits for one more
step to be completed before it takes effect.
-/

/-- A byte register. -/
inductive Register where
  | a
  | b
  | c
  | d
  | e
  | h
  | l
  deriving Repr, DecidableEq

/-- A register pair that holds a number or an address. -/
inductive Pair where
  | bc
  | de
  | hl
  | sp
  deriving Repr, DecidableEq

/-- A register pair that can be saved on the stack. -/
inductive StackPair where
  | bc
  | de
  | hl
  | af
  deriving Repr, DecidableEq

/-- A requested change of the interrupt master enable. -/
structure PendingIme where
  enable : Bool
  /-- The steps that have to be completed before the change is applied. -/
  delay : Nat
  deriving Repr, DecidableEq

/-- The state of the processor. -/
structure Cpu where
  a : UInt8
  flags : Flags
  b : UInt8
  c : UInt8
  d : UInt8
  e : UInt8
  h : UInt8
  l : UInt8
  pc : UInt16
  sp : UInt16
  /-- The cycles since power-on. -/
  cycles : UInt64
  /-- The interrupt master enable. -/
  ime : Bool
  halted : Bool
  pendingIme : Option PendingIme
  deriving Repr, DecidableEq

namespace Cpu

/-- The state in which a program finds the processor. -/
def powerOn : Cpu where
  a := 0x01
  flags := .ofByte 0xB0
  b := 0x00
  c := 0x13
  d := 0x00
  e := 0xD8
  h := 0x01
  l := 0x4D
  pc := 0x0100
  sp := 0xFFFE
  cycles := 0
  ime := false
  halted := false
  pendingIme := none

/-- The value of a byte register. -/
def get (cpu : Cpu) : Register → UInt8
  | .a => cpu.a
  | .b => cpu.b
  | .c => cpu.c
  | .d => cpu.d
  | .e => cpu.e
  | .h => cpu.h
  | .l => cpu.l

/-- Store into a byte register. -/
def set
    (register : Register)
    (value : UInt8)
    (cpu : Cpu) :
    Cpu :=
  match register with
  | .a => { cpu with a := value }
  | .b => { cpu with b := value }
  | .c => { cpu with c := value }
  | .d => { cpu with d := value }
  | .e => { cpu with e := value }
  | .h => { cpu with h := value }
  | .l => { cpu with l := value }

/-- The accumulator and the flags as a word. -/
def af (cpu : Cpu) : UInt16 :=
  Word.ofBytes cpu.a cpu.flags.toByte

/-- The registers B and C as a word. -/
def bc (cpu : Cpu) : UInt16 :=
  Word.ofBytes cpu.b cpu.c

/-- The registers D and E as a word. -/
def de (cpu : Cpu) : UInt16 :=
  Word.ofBytes cpu.d cpu.e

/-- The registers H and L as a word. -/
def hl (cpu : Cpu) : UInt16 :=
  Word.ofBytes cpu.h cpu.l

/-- Store into the accumulator and the flags. -/
def setAf
    (value : UInt16)
    (cpu : Cpu) :
    Cpu :=
  { cpu with
    a := Word.high value
    flags := .ofByte (Word.low value) }

/-- Store into the registers B and C. -/
def setBc
    (value : UInt16)
    (cpu : Cpu) :
    Cpu :=
  { cpu with
    b := Word.high value
    c := Word.low value }

/-- Store into the registers D and E. -/
def setDe
    (value : UInt16)
    (cpu : Cpu) :
    Cpu :=
  { cpu with
    d := Word.high value
    e := Word.low value }

/-- Store into the registers H and L. -/
def setHl
    (value : UInt16)
    (cpu : Cpu) :
    Cpu :=
  { cpu with
    h := Word.high value
    l := Word.low value }

/-- The value of a register pair. -/
def getPair (cpu : Cpu) : Pair → UInt16
  | .bc => cpu.bc
  | .de => cpu.de
  | .hl => cpu.hl
  | .sp => cpu.sp

/-- Store into a register pair. -/
def setPair
    (pair : Pair)
    (value : UInt16)
    (cpu : Cpu) :
    Cpu :=
  match pair with
  | .bc => cpu.setBc value
  | .de => cpu.setDe value
  | .hl => cpu.setHl value
  | .sp => { cpu with sp := value }

/-- The value of a register pair that can be saved on the stack. -/
def getStackPair (cpu : Cpu) : StackPair → UInt16
  | .bc => cpu.bc
  | .de => cpu.de
  | .hl => cpu.hl
  | .af => cpu.af

/-- Store into a register pair that can be saved on the stack. -/
def setStackPair
    (pair : StackPair)
    (value : UInt16)
    (cpu : Cpu) :
    Cpu :=
  match pair with
  | .bc => cpu.setBc value
  | .de => cpu.setDe value
  | .hl => cpu.setHl value
  | .af => cpu.setAf value

/-- Ask for a change of the interrupt master enable. -/
def requestIme
    (enable : Bool)
    (cpu : Cpu) :
    Cpu :=
  { cpu with pendingIme := some ⟨enable, 1⟩ }

/-- Let a step end: a requested change is applied once its delay is over. -/
def latchIme (cpu : Cpu) : Cpu :=
  match cpu.pendingIme with
  | none => cpu
  | some pending =>
      if pending.delay = 0 then
        { cpu with
          ime := pending.enable
          pendingIme := none }
      else
        { cpu with
          pendingIme := some { pending with delay := pending.delay - 1 } }

/-- One line that shows all register pairs and the cycle count. -/
def snapshot (cpu : Cpu) : String :=
  "AF:" ++ Hex.ofWord .upper cpu.af ++
    " BC:" ++ Hex.ofWord .upper cpu.bc ++
    " DE:" ++ Hex.ofWord .upper cpu.de ++
    " HL:" ++ Hex.ofWord .upper cpu.hl ++
    " PC:" ++ Hex.ofWord .upper cpu.pc ++
    " SP:" ++ Hex.ofWord .upper cpu.sp ++
    " CY:" ++ toString cpu.cycles.toNat

/-- A byte register reads back what was stored in it. -/
theorem get_set_same
    (register : Register)
    (value : UInt8)
    (cpu : Cpu) :
    (cpu.set register value).get register = value := by
  cases register <;> rfl

/-- Storing into one byte register leaves the others alone. -/
theorem get_set_other
    {register other : Register}
    (different : other ≠ register)
    (value : UInt8)
    (cpu : Cpu) :
    (cpu.set register value).get other = cpu.get other := by
  cases register <;> cases other <;> simp_all [get, set]

/-- A register pair reads back what was stored in it. -/
theorem getPair_setPair_same
    (pair : Pair)
    (value : UInt16)
    (cpu : Cpu) :
    (cpu.setPair pair value).getPair pair = value := by
  cases pair <;>
    simp [getPair, setPair, bc, de, hl, setBc, setDe, setHl]

end Cpu

end Dmg
