import Dmg.Proofs.BinaryArithmetic
import Dmg.Proofs.InstructionCost

namespace Dmg

/-!
# Additions of words

A word is added to HL as two bytes would be, the low ones by `ADD` and the high ones by
`ADC`, except that the zero flag is kept.  A displacement is added to the stack pointer as
a signed number, but the carries are those of `ADD` on the low byte, whichever sign the
displacement has.
-/

namespace Word

theorem toNat_low (word : UInt16) : (low word).toNat = word.toNat % 256 :=
  UInt16.toNat_toUInt8 word

/-- A word is made of its two bytes. -/
theorem toNat_high_low (word : UInt16) :
    word.toNat = 256 * (high word).toNat + (low word).toNat := by
  rw [← toNat_ofBytes, ofBytes_high_low]

/-- The lower half of the high byte takes bits 8 to 11. -/
theorem toNat_mod_halves (word : UInt16) :
    word.toNat % 0x1000 =
      256 * ((high word).toNat % 16) + (low word).toNat := by
  have bytes := toNat_high_low word
  have lowFits := (low word).toNat_lt
  omega

end Word

namespace Alu

/-- The equations that a sum of two words and its carries satisfy. -/
structure WordResult.TellsSum
    (result : WordResult)
    (left right : UInt16) :
    Prop where
  half :
    result.value.toNat % 0x1000 + 0x1000 * result.flags.halfCarry.toNat =
      left.toNat % 0x1000 + right.toNat % 0x1000
  whole :
    result.value.toNat + 0x10000 * result.flags.carry.toNat =
      left.toNat + right.toNat

/-- The equations leave no choice. -/
theorem WordResult.TellsSum.unique
    {left right : UInt16}
    {first second : WordResult}
    (firstTells : first.TellsSum left right)
    (secondTells : second.TellsSum left right) :
    first.value = second.value ∧
      first.flags.halfCarry = second.flags.halfCarry ∧
      first.flags.carry = second.flags.carry := by
  have sameBool {flag other : Bool} (same : flag.toNat = other.toNat) :
      flag = other := by
    cases flag <;> cases other <;> first | rfl | cases same
  have firstFits := first.value.toNat_lt
  have secondFits := second.value.toNat_lt
  obtain ⟨firstHalf, firstWhole⟩ := firstTells
  obtain ⟨secondHalf, secondWhole⟩ := secondTells
  have sameCarry : first.flags.carry.toNat = second.flags.carry.toNat := by
    omega
  have sameValue : first.value.toNat = second.value.toNat := by
    omega
  exact
    ⟨UInt16.toNat_inj.mp sameValue, sameBool (by omega), sameBool sameCarry⟩

theorem addWords_tells
    (left right : UInt16)
    (flags : Flags) :
    (addWords left right flags).TellsSum left right := by
  have leftFits := left.toNat_lt
  have rightFits := right.toNat_lt
  constructor
  · simp only [addWords, UInt16.toNat_add, toNat_decide]
    split <;> omega
  · simp only [addWords, UInt16.toNat_add, toNat_decide]
    split <;> omega

/-- Two words added byte by byte, with the carry between them. -/
def addBytewise
    (left right : UInt16)
    (zero : Bool) :
    WordResult :=
  let lows := add (Word.low left) (Word.low right) false
  let highs := add (Word.high left) (Word.high right) lows.flags.carry
  { value := Word.ofBytes highs.value lows.value
    flags := { highs.flags with zero := zero } }

/-- What the bytes and their flags tell, the word and its flags tell. -/
theorem addBytewise_tells
    (left right : UInt16)
    (zero : Bool) :
    (addBytewise left right zero).TellsSum left right := by
  let lows := add (Word.low left) (Word.low right) false
  let highs := add (Word.high left) (Word.high right) lows.flags.carry
  have lowWhole :
      lows.value.toNat + 256 * lows.flags.carry.toNat =
        (Word.low left).toNat + (Word.low right).toNat :=
    (add_tells _ _ false).whole
  have highHalf :
      highs.value.toNat % 16 + 16 * highs.flags.halfCarry.toNat =
        (Word.high left).toNat % 16 + (Word.high right).toNat % 16 +
          lows.flags.carry.toNat :=
    (add_tells _ _ lows.flags.carry).half
  have highWhole :
      highs.value.toNat + 256 * highs.flags.carry.toNat =
        (Word.high left).toNat + (Word.high right).toNat +
          lows.flags.carry.toNat :=
    (add_tells _ _ lows.flags.carry).whole
  have joined := Word.toNat_ofBytes highs.value lows.value
  have joinedHalves :=
    Word.toNat_mod_halves (Word.ofBytes highs.value lows.value)
  rw [Word.high_ofBytes, Word.low_ofBytes] at joinedHalves
  constructor
  · change
      (Word.ofBytes highs.value lows.value).toNat % 0x1000 +
          0x1000 * highs.flags.halfCarry.toNat = _
    rw [joinedHalves, Word.toNat_mod_halves left, Word.toNat_mod_halves right]
    omega
  · change
      (Word.ofBytes highs.value lows.value).toNat +
          0x10000 * highs.flags.carry.toNat = _
    rw [joined, Word.toNat_high_low left, Word.toNat_high_low right]
    omega

/-- The addition of words is that of their bytes. -/
theorem addWords_eq_addBytewise
    (left right : UInt16)
    (flags : Flags) :
    addWords left right flags = addBytewise left right flags.zero := by
  obtain ⟨sameValue, sameHalf, sameCarry⟩ :=
    (addWords_tells left right flags).unique
      (addBytewise_tells left right flags.zero)
  rw [addWords, addBytewise, WordResult.mk.injEq, Flags.mk.injEq]
  exact ⟨sameValue, rfl, rfl, sameHalf, sameCarry⟩

/-- The carries of a displacement are those of the low byte. -/
theorem displace_flags
    (base : UInt16)
    (displacement : UInt8) :
    (displace base displacement).flags =
      { (add (Word.low base) displacement false).flags with zero := false } := by
  have halves : base.toNat % 256 % 16 = base.toNat % 16 := by
    omega
  simp [displace, add, Word.toNat_low, halves]

end Alu

/-- HL reads back what was stored in it. -/
theorem Cpu.hl_setHl
    (value : UInt16)
    (cpu : Cpu) :
    (cpu.setHl value).hl = value :=
  cpu.getPair_setPair_same .hl value

/--
The word is the base moved by the displacement, which is a signed number.  The flags say
so of the low byte, to which `ADD` would add the displacement as it stands.
-/
structure Displaced
    (base : UInt16)
    (displacement : UInt8)
    (word : UInt16)
    (flags : Flags) :
    Prop where
  moved :
    (word.toNat : Int) =
      (base.toNat + displacement.toInt8.toInt) % 0x10000
  zero : flags.zero = false
  subtract : flags.subtract = false
  carries :
    ∀ carry,
      AluOp.add.work carry (Word.low base, displacement) fun _ byteFlags =>
        flags.halfCarry = byteFlags.halfCarry ∧
          flags.carry = byteFlags.carry

theorem displaced_displace
    (base : UInt16)
    (displacement : UInt8) :
    Displaced base displacement (Alu.displace base displacement).value
      (Alu.displace base displacement).flags where
  moved := Word.toNat_add_ofDisplacement base displacement
  zero := rfl
  subtract := rfl
  carries := by
    intro carry
    rw [Alu.displace_flags]
    exact AluOp.work_of_compute nofun ⟨rfl, rfl⟩

namespace Machine

/--
`ADD HL` leaves the bytes of HL, and the flags but for zero, as `ADD` would leave the sum
of the low bytes and then `ADC` the sum of the high bytes; the zero flag is kept.  `ADD SP`
and `LD HL, SP` with a displacement move the stack pointer by it, as a signed number and
modulo 2¹⁶; zero and subtraction are cleared, and the carries are those that `ADD` would
leave for the low byte of the stack pointer and the displacement.
-/
theorem word_additions_agree_with_bytes :
    (∀ (machine : Machine) (pair : Pair),
      machine.Begins (.regular (.addHl pair)) →
        ∃ cost final,
          machine.perform .executeNext = .ok cost final ∧
            ∀ carry,
              AluOp.add.work carry
                (Word.low machine.cpu.hl, Word.low (machine.cpu.getPair pair))
                fun low lowFlags =>
                  AluOp.adc.work lowFlags.carry
                    (Word.high machine.cpu.hl,
                      Word.high (machine.cpu.getPair pair))
                    fun high highFlags =>
                      final.cpu.hl = Word.ofBytes high low ∧
                        final.cpu.flags =
                          { highFlags with
                            zero := machine.cpu.flags.zero }) ∧
    (∀ (machine : Machine) (displacement : UInt8),
      machine.Begins (.irregular .addSp) →
        machine.bus.read (machine.cpu.pc + 1) = .ok displacement →
          ∃ cost final,
            machine.perform .executeNext = .ok cost final ∧
              Displaced machine.cpu.sp displacement
                final.cpu.sp final.cpu.flags) ∧
    (∀ (machine : Machine) (displacement : UInt8),
      machine.Begins (.irregular .loadHlSp) →
        machine.bus.read (machine.cpu.pc + 1) = .ok displacement →
          ∃ cost final,
            machine.perform .executeNext = .ok cost final ∧
              final.cpu.sp = machine.cpu.sp ∧
              Displaced machine.cpu.sp displacement
                final.cpu.hl final.cpu.flags) := by
  refine ⟨?_, ?_, ?_⟩
  · intro machine pair begins
    obtain ⟨opcode, succeeded⟩ := executeNext_of_begins begins nofun
    refine ⟨_, _, succeeded, fun carry => ?_⟩
    refine AluOp.work_of_compute nofun (AluOp.work_of_compute nofun ?_)
    let start := (Execution.start machine).beginning opcode
    have samePair : start.cpu.getPair pair = machine.cpu.getPair pair := by
      cases pair <;> rfl
    have sum :
        Alu.addWords start.cpu.hl (start.cpu.getPair pair) start.cpu.flags =
          Alu.addBytewise machine.cpu.hl (machine.cpu.getPair pair)
            machine.cpu.flags.zero := by
      rw [samePair]
      exact Alu.addWords_eq_addBytewise _ _ _
    constructor
    · exact
        (Cpu.hl_setHl _ _).trans (congrArg Alu.WordResult.value sum)
    · exact congrArg Alu.WordResult.flags sum
  · intro machine displacement begins found
    obtain ⟨opcode, succeeded⟩ :=
      executeNext_of_begins begins
        (List.forall_mem_singleton.mpr ⟨displacement, found⟩)
    refine ⟨_, _, succeeded, ?_⟩
    have isByte := Bus.byteAt_of_read found
    rw [← isByte]
    exact displaced_displace _ _
  · intro machine displacement begins found
    obtain ⟨opcode, succeeded⟩ :=
      executeNext_of_begins begins
        (List.forall_mem_singleton.mpr ⟨displacement, found⟩)
    refine ⟨_, _, succeeded, rfl, ?_⟩
    have isByte := Bus.byteAt_of_read found
    rw [← isByte]
    change
      Displaced machine.cpu.sp machine.behindOpcode.byteAhead
        (Cpu.hl (Cpu.setHl _ _)) _
    rw [Cpu.hl_setHl]
    exact displaced_displace _ _

/-- A machine with an instruction of two bytes, of which the second has the last address. -/
def atLastWord (opcode operand : UInt8) : Machine where
  cpu := { Cpu.powerOn with pc := 0xFFFE, sp := 0x0000, h := 0x8F, l := 0x80 }
  bus :=
    { Bus.powerOn Cartridge.blank with
      highRam := (Vector.replicate 0x7F 0).set 0x7E opcode
      interruptEnable := operand }

/-- A machine whose next instruction, at the last address, adds B to A. -/
def addingFirstAtLast (left right : UInt8) : Machine :=
  { addingAtLast left right false with
    bus := { Bus.powerOn Cartridge.blank with interruptEnable := 0x80 } }

/--
HL is doubled as two bytes are, with a carry between them and one out of bit 11.  The
displacement -1 takes the stack pointer from 0 to the last address without a carry.
-/
theorem word_additions_agree_with_bytes_doubling :
    (∃ cost final,
      (atLastWord 0x29 0x00).perform .executeNext = .ok cost final ∧
        (addingFirstAtLast 0x80 0x80).Leaves fun low lowFlags =>
          (addingAtLast 0x8F 0x8F lowFlags.carry).Leaves
            fun high highFlags =>
              final.cpu.hl = Word.ofBytes high low ∧
                final.cpu.flags = { highFlags with zero := true }) ∧
    (∃ cost final,
      (atLastWord 0xE8 0xFF).perform .executeNext = .ok cost final ∧
        final.cpu.sp = 0xFFFF ∧
        (addingFirstAtLast 0x00 0xFF).Leaves fun _ byteFlags =>
          final.cpu.flags.carry = byteFlags.carry) ∧
    (∃ cost final,
      (atLastWord 0xF8 0xFF).perform .executeNext = .ok cost final ∧
        final.cpu.sp = 0 ∧
        final.cpu.hl = 0xFFFF) := by
  obtain ⟨addsHl, addsSp, loadsHl⟩ := word_additions_agree_with_bytes
  have operates (left right : UInt8) :
      (addingFirstAtLast left right).Operates .add right :=
    .register ⟨0x80, rfl, rfl⟩ (rfl : Cpu.get _ .b = right)
  have lastAddress {word : UInt16}
      (moved : (word.toNat : Int) = 0xFFFF) :
      word = 0xFFFF :=
    UInt16.toNat_inj.mp (Int.ofNat_inj.mp moved)
  refine ⟨?_, ?_, ?_⟩
  · obtain ⟨cost, final, succeeded, agrees⟩ :=
      addsHl (atLastWord 0x29 0x00) .hl ⟨0x29, rfl, rfl⟩
    refine ⟨cost, final, succeeded, ?_⟩
    obtain ⟨lowCost, lowFinal, lowSucceeded, rest⟩ :=
      agrees false (addingFirstAtLast 0x80 0x80) rfl rfl (operates 0x80 0x80)
    exact
      ⟨lowCost, lowFinal, lowSucceeded,
        rest (addingAtLast 0x8F 0x8F lowFinal.cpu.flags.carry) rfl rfl
          (operates_addingAtLast 0x8F 0x8F _)⟩
  · obtain ⟨cost, final, succeeded, displaced⟩ :=
      addsSp (atLastWord 0xE8 0xFF) 0xFF ⟨0xE8, rfl, rfl⟩ rfl
    obtain ⟨byteCost, byteFinal, byteSucceeded, -, sameCarry⟩ :=
      displaced.carries false (addingFirstAtLast 0x00 0xFF) rfl rfl
        (operates 0x00 0xFF)
    exact
      ⟨cost, final, succeeded, lastAddress displaced.moved,
        byteCost, byteFinal, byteSucceeded, sameCarry⟩
  · obtain ⟨cost, final, succeeded, kept, displaced⟩ :=
      loadsHl (atLastWord 0xF8 0xFF) 0xFF ⟨0xF8, rfl, rfl⟩ rfl
    exact ⟨cost, final, succeeded, kept, lastAddress displaced.moved⟩

end Machine

end Dmg
