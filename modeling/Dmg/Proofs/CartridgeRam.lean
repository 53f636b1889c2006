import Dmg.Cartridge.Basic

namespace Dmg.Cartridge

/-!
# The RAM of a cartridge

A write into the RAM window changes one byte of the bank in view and nothing else:
not the size of the RAM, not the banks in view, not the ROM.  A read finds the byte
again, and at other offsets what was there before.
-/

/-- The RAM answers at an offset: it is enabled, and the bank in view is long enough. -/
def RamAnswers
    (cartridge : Cartridge)
    (offset : Nat) :
    Prop :=
  cartridge.ramEnabled = true ∧ offset < cartridge.ramLength

instance
    (cartridge : Cartridge)
    (offset : Nat) :
    Decidable (cartridge.RamAnswers offset) :=
  inferInstanceAs (Decidable (_ ∧ _))

/-- The cartridge with one byte of its RAM replaced. -/
def withRamByte
    (cartridge : Cartridge)
    (index : Nat)
    (value : UInt8) :
    Cartridge :=
  { cartridge with ram := cartridge.ram.setIfInBounds index value }

/-- Replacing a byte of the RAM changes neither where it answers nor where a bank starts. -/
theorem withRamByte_answers
    (cartridge : Cartridge)
    (index : Nat)
    (value : UInt8)
    (offset : Nat) :
    (cartridge.withRamByte index value).RamAnswers offset ↔
      cartridge.RamAnswers offset := by
  have sameSize :
      (cartridge.withRamByte index value).ram.size = cartridge.ram.size :=
    Array.size_setIfInBounds
  have sameEnabled :
      (cartridge.withRamByte index value).ramEnabled =
        cartridge.ramEnabled := by
    unfold ramEnabled Array.isEmpty
    rw [sameSize]
    rfl
  have sameLength :
      (cartridge.withRamByte index value).ramLength =
        cartridge.ramLength := by
    unfold ramLength
    rw [sameSize]
    rfl
  unfold RamAnswers
  rw [sameEnabled, sameLength]

/-- An offset at which the RAM answers has its place inside the RAM. -/
theorem RamAnswers.inside
    {cartridge : Cartridge}
    {offset : Nat}
    (answers : cartridge.RamAnswers offset) :
    cartridge.ramStart + offset < cartridge.ram.size := by
  have inBank := answers.2
  unfold ramLength at inBank
  omega

/-- Only a RAM that is there answers. -/
theorem RamAnswers.present
    {cartridge : Cartridge}
    {offset : Nat}
    (answers : cartridge.RamAnswers offset) :
    cartridge.ram.size ≠ 0 :=
  Nat.ne_zero_of_lt answers.inside

/-- A write replaces one byte where the RAM answers, and does nothing elsewhere. -/
theorem writeRam_eq
    (cartridge : Cartridge)
    (offset : Nat)
    (value : UInt8) :
    cartridge.writeRam offset value =
      if cartridge.RamAnswers offset then
        cartridge.withRamByte (cartridge.ramStart + offset) value
      else
        cartridge := by
  unfold writeRam setRam ramIndex?
  by_cases enabled : cartridge.ramEnabled
  · rw [if_pos enabled]
    by_cases inside : offset < cartridge.ramLength
    · rw [if_pos inside, if_pos ⟨enabled, inside⟩]
      rfl
    · rw [if_neg inside, if_neg fun answers => inside answers.2]
  · rw [if_neg enabled, if_neg fun answers => enabled answers.1]

/-- A read finds a byte of the RAM where the RAM answers, and all bits set elsewhere. -/
theorem readRam_eq
    (cartridge : Cartridge)
    (offset : Nat) :
    cartridge.readRam offset =
      if cartridge.RamAnswers offset then
        cartridge.ram[cartridge.ramStart + offset]?.getD 0xFF
      else
        0xFF := by
  unfold readRam ramIndex?
  by_cases enabled : cartridge.ramEnabled
  · rw [if_pos enabled]
    by_cases inside : offset < cartridge.ramLength
    · rw [if_pos inside, if_pos ⟨enabled, inside⟩]
      rfl
    · rw [if_neg inside, if_neg fun answers => inside answers.2]
      rfl
  · rw [if_neg enabled, if_neg fun answers => enabled answers.1]

/-- The written byte is read back where the RAM answers, and all bits set elsewhere. -/
theorem readRam_writeRam_same
    (cartridge : Cartridge)
    (offset : Nat)
    (value : UInt8) :
    (cartridge.writeRam offset value).readRam offset =
      if cartridge.RamAnswers offset then value else 0xFF := by
  rw [readRam_eq, writeRam_eq]
  by_cases answers : cartridge.RamAnswers offset
  · rw [if_pos answers, if_pos answers,
      if_pos ((withRamByte_answers _ _ _ _).mpr answers)]
    have found :
        (cartridge.ram.setIfInBounds
            (cartridge.ramStart + offset) value)[
          cartridge.ramStart + offset]? = some value :=
      Array.getElem?_setIfInBounds_self_of_lt answers.inside
    exact congrArg (·.getD 0xFF) found
  · rw [if_neg answers, if_neg answers, if_neg answers]

/-- A write at one offset leaves the other offsets of the window as they read before. -/
theorem readRam_writeRam_other
    {stored offset : Nat}
    (different : offset ≠ stored)
    (cartridge : Cartridge)
    (value : UInt8) :
    (cartridge.writeRam stored value).readRam offset =
      cartridge.readRam offset := by
  rw [writeRam_eq]
  split
  · rw [readRam_eq, readRam_eq]
    have sameByte :
        (cartridge.ram.setIfInBounds
            (cartridge.ramStart + stored) value)[
          cartridge.ramStart + offset]? =
          cartridge.ram[cartridge.ramStart + offset]? :=
      Array.getElem?_setIfInBounds_ne (by omega)
    by_cases answers : cartridge.RamAnswers offset
    · rw [if_pos answers,
        if_pos ((withRamByte_answers _ _ _ _).mpr answers)]
      exact congrArg (·.getD 0xFF) sameByte
    · rw [if_neg answers,
        if_neg (fun answersAfter =>
          answers ((withRamByte_answers _ _ _ _).mp answersAfter))]
  · rfl

/-- A write into the RAM window leaves the ROM windows as they read before. -/
theorem rom_writeRam
    (cartridge : Cartridge)
    (stored : Nat)
    (value : UInt8) :
    (cartridge.writeRam stored value).lowerRom = cartridge.lowerRom ∧
      (cartridge.writeRam stored value).upperRom = cartridge.upperRom := by
  rw [writeRam_eq]
  split <;> exact ⟨rfl, rfl⟩

end Dmg.Cartridge
