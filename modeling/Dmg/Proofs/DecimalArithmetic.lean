import Dmg.Proofs.BinaryArithmetic

namespace Dmg

/-!
# Decimal arithmetic of any length

A byte may hold two decimal digits, one in each half.  Sums and differences of such bytes
are binary at first, and the decimal adjustment corrects them; of the operation it knows
only what the flags tell.  That is enough to make the digits right and to leave the decimal
carry, so that numbers of any length are added and subtracted.
-/

/-- A byte with a decimal digit in each half. -/
def Numeral.packedDecimal : Numeral where
  base := 100
  one_lt_base := by decide
  digit := fun byte => 10 * (byte.toNat / 16) + byte.toNat % 16
  Valid := fun byte => byte.toNat / 16 < 10 ∧ byte.toNat % 16 < 10
  digit_lt := by
    rintro byte ⟨high, low⟩
    omega

namespace Alu

/-- The number that a byte becomes if a correction is added where it is needed. -/
theorem toNat_raised
    (value correction : UInt8)
    (corrects : Bool) :
    (if corrects then value + correction else value).toNat =
      (value.toNat + correction.toNat * corrects.toNat) % 256 := by
  cases corrects with
  | false => simp
  | true => simp

/-- The number that a byte becomes if a correction is subtracted where it is needed. -/
theorem toNat_lowered
    (value correction : UInt8)
    (corrects : Bool) :
    (if corrects then value - correction else value).toNat =
      (value.toNat + 256 - correction.toNat * corrects.toNat) % 256 := by
  have fits := value.toNat_lt
  have correctionFits := correction.toNat_lt
  cases corrects with
  | false => simp
  | true =>
      simp only [if_true, UInt8.toNat_sub, Bool.toNat_true]
      omega

/-- Whether the adjustment of a sum corrects the low digit. -/
def correctsLow
    (value : UInt8)
    (flags : Flags) :
    Bool :=
  flags.halfCarry || decide (9 < value.toNat % 16)

/-- Whether the adjustment of a sum corrects the high digit. -/
def correctsHigh
    (value : UInt8)
    (flags : Flags) :
    Bool :=
  flags.carry || decide (0x99 < value.toNat)

/-- The high digit is corrected first, but the low one is judged as it was. -/
theorem correctsLow_after_high
    (value : UInt8)
    (flags : Flags)
    (high : Bool) :
    (flags.halfCarry ||
        decide (0x09 < (if high then value + 0x60 else value) &&& 0x0F)) =
      correctsLow value flags := by
  have sameLow :
      ((if high then value + 0x60 else value) &&& 0x0F).toNat =
        value.toNat % 16 := by
    rw [UInt8.toNat_and, toNat_raised]
    change _ &&& (2 ^ 4 - 1) = _
    rw [Nat.and_two_pow_sub_one_eq_mod]
    have correction : (0x60 : UInt8).toNat = 96 := rfl
    rw [correction]
    omega
  unfold correctsLow
  congr 1
  rw [decide_eq_decide, UInt8.lt_iff_toNat_lt, sameLow]
  rfl

theorem toNat_adjustSum
    (value : UInt8)
    (flags : Flags) :
    (adjustSum value flags).value.toNat =
      (value.toNat + 0x60 * (correctsHigh value flags).toNat +
          0x06 * (correctsLow value flags).toNat) %
        256 := by
  have high :
      (flags.carry || decide (0x99 < value)) = correctsHigh value flags :=
    rfl
  simp only [adjustSum, high, correctsLow_after_high, toNat_raised]
  change
    (_ % 256 + 0x06 * (correctsLow value flags).toNat) % 256 = _
  rw [Nat.mod_add_mod]
  rfl

theorem toNat_adjustDifference
    (value : UInt8)
    (flags : Flags) :
    (adjustDifference value flags).value.toNat =
      (value.toNat + 512 - 0x60 * flags.carry.toNat -
          0x06 * flags.halfCarry.toNat) %
        256 := by
  have carryFits := flags.carry.toNat_le
  have halfFits := flags.halfCarry.toNat_le
  have fits := value.toNat_lt
  have high : (0x60 : UInt8).toNat = 0x60 := rfl
  have low : (0x06 : UInt8).toNat = 0x06 := rfl
  simp only [adjustDifference, toNat_lowered, high, low]
  omega

/-- Two sums of digits become digits if each is lowered by ten where it is corrected. -/
theorem digits_of_sums
    {highs lows : Nat}
    {correctedHigh correctedLow : Bool}
    (highsFit : highs ≤ 18)
    (lowsFit : lows ≤ 19)
    (isLow : correctedLow = true ↔ 10 ≤ lows)
    (isHigh : correctedHigh = true ↔ 100 ≤ 10 * highs + lows) :
    ∃ high low,
      high < 10 ∧ low < 10 ∧
        high + 10 * correctedHigh.toNat = highs + correctedLow.toNat ∧
        low + 10 * correctedLow.toNat = lows := by
  refine
    ⟨highs + correctedLow.toNat - 10 * correctedHigh.toNat,
      lows - 10 * correctedLow.toNat, ?_⟩
  cases correctedLow <;> cases correctedHigh <;>
    simp only [Bool.false_eq_true, false_iff, true_iff, Bool.toNat_false,
      Bool.toNat_true] at isLow isHigh ⊢ <;>
    omega

section Sum

variable
  {flags : Flags}
  {carry : Bool}
  {pair : UInt8 × UInt8}
  {sum : UInt8}
  (tells : flags.TellSum carry pair sum)
  (first : Numeral.packedDecimal.Valid pair.1)
  (second : Numeral.packedDecimal.Valid pair.2)
include tells first second

/-- The low digit of a sum is corrected if it has two decimal places. -/
theorem correctsLow_iff :
    correctsLow sum flags = true ↔
      10 ≤ pair.1.toNat % 16 + pair.2.toNat % 16 + carry.toNat := by
  have half := tells.half
  have sumFits := Nat.mod_lt sum.toNat (show 0 < 16 by decide)
  obtain ⟨-, firstLow⟩ := first
  obtain ⟨-, secondLow⟩ := second
  have carryFits := carry.toNat_le
  rw [correctsLow, Bool.or_eq_true, decide_eq_true_eq]
  cases halfCarry : flags.halfCarry with
  | false =>
      rw [halfCarry, Bool.toNat_false] at half
      simp only [Bool.false_eq_true, false_or]
      omega
  | true =>
      rw [halfCarry, Bool.toNat_true] at half
      simp only [true_or, true_iff]
      omega

/-- The high digit of a sum is corrected if the sum has three decimal places. -/
theorem correctsHigh_iff :
    correctsHigh sum flags = true ↔
      100 ≤
        Numeral.packedDecimal.digit pair.1 +
          Numeral.packedDecimal.digit pair.2 + carry.toNat := by
  have whole := tells.whole
  have sumFits := sum.toNat_lt
  obtain ⟨firstHigh, firstLow⟩ := first
  obtain ⟨secondHigh, secondLow⟩ := second
  have carryFits := carry.toNat_le
  rw [correctsHigh, Bool.or_eq_true, decide_eq_true_eq]
  simp only [Numeral.packedDecimal]
  cases carryOut : flags.carry with
  | false =>
      rw [carryOut, Bool.toNat_false] at whole
      simp only [Bool.false_eq_true, false_or]
      omega
  | true =>
      rw [carryOut, Bool.toNat_true] at whole
      simp only [true_or, true_iff]
      omega

/-- The adjustment turns the sum of two decimal bytes into their decimal sum. -/
theorem adjustSum_adds :
    Numeral.packedDecimal.Adds carry pair (adjustSum sum flags).value
      (adjustSum sum flags).flags.carry := by
  have isLow := correctsLow_iff tells first second
  have isHigh := correctsHigh_iff tells first second
  have whole := tells.whole
  have isValue := toNat_adjustSum sum flags
  have carryOut :
      (adjustSum sum flags).flags.carry = correctsHigh sum flags :=
    rfl
  obtain ⟨firstHigh, firstLow⟩ := first
  obtain ⟨secondHigh, secondLow⟩ := second
  have carryFits := carry.toNat_le
  have inHalves :
      Numeral.packedDecimal.digit pair.1 +
            Numeral.packedDecimal.digit pair.2 + carry.toNat =
        10 * (pair.1.toNat / 16 + pair.2.toNat / 16) +
          (pair.1.toNat % 16 + pair.2.toNat % 16 + carry.toNat) := by
    simp only [Numeral.packedDecimal]
    omega
  rw [inHalves] at isHigh
  obtain ⟨high, low, highFits, lowFits, highSum, lowSum⟩ :=
    digits_of_sums (by omega) (by omega) isLow isHigh
  have value : (adjustSum sum flags).value.toNat = 16 * high + low := by
    rw [isValue]
    omega
  rw [carryOut, Numeral.Adds, inHalves]
  simp only [Numeral.packedDecimal]
  rw [value]
  omega

end Sum

/-- The adjustment turns the difference of two decimal bytes into their decimal one. -/
theorem adjustDifference_subtracts
    {flags : Flags}
    {borrow : Bool}
    {pair : UInt8 × UInt8}
    {difference : UInt8}
    (tells : flags.TellDifference borrow pair difference)
    (first : Numeral.packedDecimal.Valid pair.1)
    (second : Numeral.packedDecimal.Valid pair.2) :
    Numeral.packedDecimal.Subtracts borrow pair
      (adjustDifference difference flags).value
      (adjustDifference difference flags).flags.carry := by
  obtain ⟨firstHigh, firstLow⟩ := first
  obtain ⟨secondHigh, secondLow⟩ := second
  have half := tells.half
  have whole := tells.whole
  have borrowFits := borrow.toNat_le
  have differenceFits := difference.toNat_lt
  have value := toNat_adjustDifference difference flags
  have borrows :
      (adjustDifference difference flags).flags.carry = flags.carry :=
    rfl
  rw [borrows]
  simp only [Numeral.Subtracts, Numeral.packedDecimal]
  rw [value]
  -- A half that has borrowed took sixteen where a decimal digit is worth ten.
  cases halfBorrow : flags.halfCarry <;> cases borrowOut : flags.carry <;>
    rw [halfBorrow] at half <;> rw [borrowOut] at whole <;>
    simp only [Bool.toNat_true, Bool.toNat_false] at half whole ⊢ <;>
    omega

/-- The flags that every adjustment leaves. -/
theorem decimalAdjust_flags
    (value : UInt8)
    (flags : Flags) :
    let adjusted := decimalAdjust value flags
    (adjusted.flags.zero = true ↔ adjusted.value = 0) ∧
      adjusted.flags.subtract = flags.subtract ∧
      adjusted.flags.halfCarry = false := by
  dsimp only
  unfold decimalAdjust
  cases subtract : flags.subtract with
  | false => exact ⟨beq_iff_eq, rfl, rfl⟩
  | true => exact ⟨beq_iff_eq, rfl, rfl⟩

end Alu

/--
Whichever machine has the byte in the accumulator and the flags, and adjusts them,
succeeds.
-/
def DecimallyAdjusts
    (value : UInt8)
    (flags : Flags)
    (property : UInt8 → Flags → Prop) :
    Prop :=
  ∀ machine : Machine,
    machine.cpu.a = value →
      machine.cpu.flags = flags →
        machine.Begins (.irregular .decimalAdjust) →
          machine.Leaves property

theorem decimallyAdjusts_of_compute
    {value : UInt8}
    {flags : Flags}
    {property : UInt8 → Flags → Prop}
    (holds :
      property (Alu.decimalAdjust value flags).value
        (Alu.decimalAdjust value flags).flags) :
    DecimallyAdjusts value flags property := by
  rintro machine rfl rfl ⟨opcode, found, decoded⟩
  have succeeded := Machine.executeNext_of_answered found decoded nofun
  exact ⟨_, _, succeeded, holds⟩

/-- The work of an operation on two decimal bytes, whose result is then adjusted. -/
def AluOp.decimalWork (operation : AluOp) : ByteWork (UInt8 × UInt8) :=
  fun carry pair property =>
    operation.work carry pair fun result flags =>
      DecimallyAdjusts result flags property

namespace AluOp

theorem decimalWork_monotone (operation : AluOp) :
    operation.decimalWork.Monotone := by
  intro carry pair property other work weaken
  refine operation.work_monotone _ _ _ _ work fun result flags adjusts => ?_
  intro machine value sameFlags begins
  obtain ⟨cost, final, succeeded, holds⟩ :=
    adjusts machine value sameFlags begins
  exact ⟨cost, final, succeeded, weaken _ _ holds⟩

variable {pair : UInt8 × UInt8}

theorem adc_decimalWork
    (first : Numeral.packedDecimal.Valid pair.1)
    (second : Numeral.packedDecimal.Valid pair.2)
    (carry : Bool) :
    AluOp.adc.decimalWork carry pair fun result flags =>
      Numeral.packedDecimal.Adds carry pair result flags.carry := by
  refine work_monotone .adc _ _ _ _ (adc_work carry pair) ?_
  intro sum flags tells
  apply decimallyAdjusts_of_compute
  rw [Alu.decimalAdjust, tells.subtract]
  exact Alu.adjustSum_adds tells first second

theorem sbc_decimalWork
    (first : Numeral.packedDecimal.Valid pair.1)
    (second : Numeral.packedDecimal.Valid pair.2)
    (borrow : Bool) :
    AluOp.sbc.decimalWork borrow pair fun result flags =>
      Numeral.packedDecimal.Subtracts borrow pair result flags.carry := by
  refine work_monotone .sbc _ _ _ _ (sbc_work borrow pair) ?_
  intro difference flags tells
  apply decimallyAdjusts_of_compute
  rw [Alu.decimalAdjust, tells.subtract]
  exact Alu.adjustDifference_subtracts tells first second

/--
Whatever machines take their turns on the bytes of two decimal numbers, with the carry flag
that the turn before has left, `ADC` adds and `SBC` subtracts numbers of any length if the
decimal adjustment follows on every byte.  Every adjustment tells whether it has left zero,
keeps whether it was a subtraction and clears the half carry.
-/
theorem decimal_chains_add_and_subtract
    {pairs : List (UInt8 × UInt8)}
    (decimal :
      ∀ pair ∈ pairs,
        Numeral.packedDecimal.Valid pair.1 ∧
          Numeral.packedDecimal.Valid pair.2) :
    (∀ carry,
      AluOp.adc.decimalWork.Chain carry pairs
        (Numeral.packedDecimal.IsSum carry pairs)) ∧
    (∀ borrow,
      AluOp.sbc.decimalWork.Chain borrow pairs
        (Numeral.packedDecimal.IsDifference borrow pairs)) ∧
    (∀ value flags,
      DecimallyAdjusts value flags fun result left =>
        (left.zero = true ↔ result = 0) ∧
          left.subtract = flags.subtract ∧
          left.halfCarry = false) := by
  refine ⟨?_, ?_, ?_⟩
  · refine Numeral.chain_isSum (decimalWork_monotone .adc) ?_
    intro pair member carry
    obtain ⟨first, second⟩ := decimal pair member
    exact adc_decimalWork first second carry
  · refine Numeral.chain_isDifference (decimalWork_monotone .sbc) ?_
    intro pair member borrow
    obtain ⟨first, second⟩ := decimal pair member
    exact sbc_decimalWork first second borrow
  · intro value flags
    exact decimallyAdjusts_of_compute (Alu.decimalAdjust_flags value flags)

end AluOp

/-- A machine whose next instruction, at the last address, adjusts the byte. -/
def Machine.adjustingAtLast
    (value : UInt8)
    (flags : Flags) :
    Machine where
  cpu := { Cpu.powerOn with pc := 0xFFFF, a := value, flags := flags }
  bus := { Bus.powerOn Cartridge.blank with interruptEnable := 0x27 }

/-- Four machines add 3401 to 1299, two of them for each byte. -/
theorem AluOp.decimal_chains_add_and_subtract_carrying :
    (Machine.addingAtLast 0x99 0x01 false).Leaves fun sum flags =>
      (Machine.adjustingAtLast sum flags).Leaves fun low carried =>
        (Machine.addingAtLast 0x12 0x34 carried.carry).Leaves fun sum flags =>
          (Machine.adjustingAtLast sum flags).Leaves fun high last =>
            Numeral.packedDecimal.number [low, high] = 4700 ∧
              last.carry = false := by
  have decimal :
      ∀ pair ∈ [((0x99 : UInt8), (0x01 : UInt8)), (0x12, 0x34)],
        Numeral.packedDecimal.Valid pair.1 ∧
          Numeral.packedDecimal.Valid pair.2 := by
    simp [Numeral.packedDecimal]
  have chain := (decimal_chains_add_and_subtract decimal).1 false
  have adjusts (value : UInt8) (flags : Flags) :
      (Machine.adjustingAtLast value flags).Begins
        (.irregular .decimalAdjust) :=
    ⟨0x27, rfl, rfl⟩
  obtain ⟨cost, added, succeeded, lowAdjusts⟩ :=
    chain (.addingAtLast 0x99 0x01 false) rfl rfl
      (Machine.operates_addingAtLast 0x99 0x01 false)
  refine ⟨cost, added, succeeded, ?_⟩
  obtain ⟨cost, low, succeeded, rest⟩ :=
    lowAdjusts (.adjustingAtLast added.cpu.a added.cpu.flags) rfl rfl
      (adjusts added.cpu.a added.cpu.flags)
  refine ⟨cost, low, succeeded, ?_⟩
  obtain ⟨cost, added, succeeded, highAdjusts⟩ :=
    rest (.addingAtLast 0x12 0x34 low.cpu.flags.carry) rfl rfl
      (Machine.operates_addingAtLast 0x12 0x34 low.cpu.flags.carry)
  refine ⟨cost, added, succeeded, ?_⟩
  obtain ⟨cost, high, succeeded, sum⟩ :=
    highAdjusts (.adjustingAtLast added.cpu.a added.cpu.flags) rfl rfl
      (adjusts added.cpu.a added.cpu.flags)
  refine ⟨cost, high, succeeded, sum.number_eq, ?_⟩
  exact Bool.eq_false_iff.mpr fun carries =>
    absurd (sum.carry_iff.mp carries) (by decide)

end Dmg
