import Dmg.Cartridge.Load

namespace Dmg

/-!
# Banks in range

Whatever is stored into a cartridge, its memories keep their sizes, its ROM keeps its
bytes, and the banks in view lie inside.  The controller may hold any selector; it is
the reduction by the number of banks that keeps the selected bank in range, also where
that number is no power of two.
-/

namespace Controller

variable {banks : Nat}

/-- The bank in the upper window is never bank 0, and is one of the banks. -/
theorem romBank_range
    (controller : Controller)
    (two : 2 ≤ banks) :
    1 ≤ controller.romBank banks ∧ controller.romBank banks < banks := by
  cases controller with
  | romOnly => exact ⟨Nat.le_refl 1, two⟩
  | mbc1 registers =>
      have reduced : registers.romSelect.toNat % banks < banks :=
        Nat.mod_lt _ (by omega)
      unfold romBank
      dsimp only
      split <;> omega

/-- The RAM bank that is shown is one of the banks, or bank 0 if there are none. -/
theorem ramBank_range (controller : Controller) :
    controller.ramBank banks = 0 ∨ controller.ramBank banks < banks := by
  cases controller with
  | romOnly => exact .inl rfl
  | mbc1 registers =>
      unfold ramBank
      dsimp only
      split
      · exact .inl rfl
      · exact .inr (Nat.mod_lt _ (by omega))

end Controller

namespace Header

/-- Every size code declares at least two ROM banks. -/
theorem two_le_romBanks
    {code : UInt8}
    {banks : Nat}
    (declared : romBanks? code = some banks) :
    2 ≤ banks := by
  unfold romBanks? at declared
  split at declared
  · cases declared
    rw [Nat.shiftLeft_eq]
    have positive : 0 < 2 ^ code.toNat := Nat.two_pow_pos _
    omega
  · repeat' split at declared
    all_goals cases declared <;> omega

/-- A RAM that is there reaches into the last of its banks. -/
theorem ramLayout_reaches
    {code : UInt8}
    {layout : RamLayout}
    (declared : ramLayout? code = some layout) :
    layout.size ≠ 0 →
      (layout.banks - 1) * Cartridge.ramBankSize < layout.size := by
  unfold ramLayout? at declared
  split at declared <;> cases declared <;> decide

end Header

namespace Cartridge

section Loading

variable {image : Image}

/-- The ROM banks that are found are those declared, and the image is as long as that. -/
theorem checkRom_eq_ok_iff {banks : Nat} :
    checkRom image = .ok banks ↔
      Header.romBanks? (Header.romSizeCode image) = some banks ∧
        image.size / romBankSize = banks := by
  unfold checkRom
  dsimp only
  cases Header.romBanks? (Header.romSizeCode image) with
  | none => simp
  | some declared =>
      dsimp only
      by_cases held : declared = image.size / romBankSize
      · rw [if_pos held]
        simp [held]
      · rw [if_neg held]
        simp only [reduceCtorEq, Option.some.injEq, false_iff, not_and]
        rintro rfl
        exact fun same => held same.symm

theorem checkRam_eq_ok_iff {layout : Header.RamLayout} :
    checkRam image = .ok layout ↔
      Header.ramLayout? (Header.ramSizeCode image) = some layout := by
  unfold checkRam
  dsimp only
  cases Header.ramLayout? (Header.ramSizeCode image) with
  | none => simp
  | some declared => simp

/-- An image is loaded if it passes every check. -/
theorem load_eq_ok_iff {cartridge : Cartridge} :
    load image = .ok cartridge ↔
      Header.size ≤ image.size ∧
        Header.hasLogo image = true ∧
        ∃ romBanks layout controller,
          checkRom image = .ok romBanks ∧
            checkRam image = .ok layout ∧
            checkKind image = .ok controller ∧
            ofChecked image romBanks layout controller = cartridge := by
  unfold load
  by_cases short : image.size < Header.size
  · rw [if_pos short]
    simp [Nat.not_le_of_lt short]
  rw [if_neg short]
  cases Header.hasLogo image with
  | false => simp
  | true =>
      cases checkRom image <;> cases checkRam image <;>
        cases checkKind image <;>
        simp [bind, Except.bind, pure, Except.pure,
          Nat.le_of_not_lt short]

end Loading

/-- Something that can be done to a cartridge. -/
inductive Operation where
  /-- A store into the address range of the ROM. -/
  | control (address : UInt16) (value : UInt8)
  /-- A store into the address range of the RAM. -/
  | writeRam (address : UInt16) (value : UInt8)
  /-- A store into the RAM bank in view from outside the bus. -/
  | setRam (offset : Nat) (value : UInt8)
  | resetBanking
  deriving Repr, DecidableEq

/-- What an operation makes of a cartridge. -/
def apply (cartridge : Cartridge) : Operation → Cartridge
  | .control address value => cartridge.writeControl address value
  | .writeRam address value => cartridge.writeRamAt address value
  | .setRam offset value => cartridge.setRam offset value
  | .resetBanking => cartridge.resetBanking

/-- What a sequence of operations makes of a cartridge. -/
def afterAll
    (cartridge : Cartridge)
    (operations : List Operation) :
    Cartridge :=
  operations.foldl apply cartridge

/-- A new cartridge, and the bytes that it was made from; a blank one has none. -/
inductive MadeFrom : Array UInt8 → Cartridge → Prop where
  | load
      {image : Image}
      {cartridge : Cartridge}
      (loaded : load image = .ok cartridge) :
      MadeFrom image cartridge
  | ofBytes
      (bytes : Array UInt8) :
      MadeFrom bytes (.ofBytes bytes)
  | blank :
      MadeFrom #[] .blank

/-- A cartridge differs from an earlier one in the controller and in RAM bytes at most. -/
structure Keeps (earlier later : Cartridge) : Prop where
  rom : later.rom = earlier.rom
  romBanks : later.romBanks = earlier.romBanks
  ramBanks : later.ramBanks = earlier.ramBanks
  ramSize : later.ram.size = earlier.ram.size

namespace Keeps

theorem refl (cartridge : Cartridge) : Keeps cartridge cartridge where
  rom := rfl
  romBanks := rfl
  ramBanks := rfl
  ramSize := rfl

theorem trans
    {first second third : Cartridge}
    (before : Keeps first second)
    (after : Keeps second third) :
    Keeps first third where
  rom := after.rom.trans before.rom
  romBanks := after.romBanks.trans before.romBanks
  ramBanks := after.ramBanks.trans before.ramBanks
  ramSize := after.ramSize.trans before.ramSize

theorem setRam
    (cartridge : Cartridge)
    (offset : Nat)
    (value : UInt8) :
    Keeps cartridge (cartridge.setRam offset value) := by
  unfold Cartridge.setRam
  split
  · exact ⟨rfl, rfl, rfl, Array.size_setIfInBounds⟩
  · exact .refl cartridge

theorem writeRam
    (cartridge : Cartridge)
    (offset : Nat)
    (value : UInt8) :
    Keeps cartridge (cartridge.writeRam offset value) := by
  unfold Cartridge.writeRam
  split
  · exact .setRam cartridge offset value
  · exact .refl cartridge

theorem apply
    (cartridge : Cartridge)
    (operation : Operation) :
    Keeps cartridge (cartridge.apply operation) := by
  cases operation with
  | control address value => exact ⟨rfl, rfl, rfl, rfl⟩
  | writeRam address value =>
      unfold Cartridge.apply writeRamAt
      dsimp only
      split
      · exact .writeRam cartridge _ value
      · exact .refl cartridge
  | setRam offset value => exact .setRam cartridge offset value
  | resetBanking => exact ⟨rfl, rfl, rfl, rfl⟩

theorem afterAll
    (cartridge : Cartridge)
    (operations : List Operation) :
    Keeps cartridge (cartridge.afterAll operations) := by
  induction operations generalizing cartridge with
  | nil => exact .refl cartridge
  | cons operation rest inductionHypothesis =>
      exact (apply cartridge operation).trans
        (inductionHypothesis (cartridge.apply operation))

end Keeps

/-- The memories of a cartridge are as large as its numbers of banks need. -/
structure Shaped (cartridge : Cartridge) : Prop where
  twoBanks : 2 ≤ cartridge.romBanks
  romHeld : cartridge.romBanks * romBankSize ≤ cartridge.rom.size
  /-- A RAM that is there reaches into the last of its banks. -/
  ramReaches :
    cartridge.ram.size ≠ 0 →
      (cartridge.ramBanks - 1) * ramBankSize < cartridge.ram.size

/-- The banks in view are among those that there are, and lie inside their memories. -/
structure InRange (cartridge : Cartridge) : Prop where
  /-- Bank 0 is never shown in the upper window. -/
  notFirst : 1 ≤ cartridge.romBank
  romBank : cartridge.romBank < cartridge.romBanks
  romInside :
    (cartridge.romBank + 1) * romBankSize ≤ cartridge.rom.size
  ramBank : cartridge.ramBank = 0 ∨ cartridge.ramBank < cartridge.ramBanks
  /-- The part of the RAM in view is not empty, no longer than a bank, and inside. -/
  ramInside :
    cartridge.ram.size ≠ 0 →
      0 < cartridge.ramLength ∧
        cartridge.ramLength ≤ ramBankSize ∧
        cartridge.ramStart + cartridge.ramLength ≤ cartridge.ram.size

namespace Shaped

theorem blank : Cartridge.blank.Shaped where
  twoBanks := Nat.le_refl 2
  romHeld := Nat.le_of_eq Array.size_replicate.symm
  ramReaches := fun present => absurd rfl present

/-- Bytes that are filled up to whole banks fill the banks that were counted. -/
theorem ofBytes (bytes : Array UInt8) :
    (Cartridge.ofBytes bytes).Shaped where
  twoBanks := Nat.le_max_left _ _
  romHeld := by
    have filled :
        (Cartridge.ofBytes bytes).rom.size =
          bytes.size +
            (banksFor bytes.size * romBankSize - bytes.size) := by
      unfold Cartridge.ofBytes
      rw [Array.size_append, Array.size_replicate]
    have banks :
        (Cartridge.ofBytes bytes).romBanks = banksFor bytes.size :=
      rfl
    rw [filled, banks]
    omega
  ramReaches := fun present => absurd rfl present

/-- An image whose header has been checked is a cartridge of the declared sizes. -/
theorem load
    {image : Image}
    {cartridge : Cartridge}
    (loaded : Cartridge.load image = .ok cartridge) :
    cartridge.Shaped ∧ cartridge.rom = image := by
  obtain ⟨-, -, banks, layout, controller, romChecked, ramChecked, -, rfl⟩ :=
    load_eq_ok_iff.mp loaded
  obtain ⟨declared, held⟩ := checkRom_eq_ok_iff.mp romChecked
  have layoutDeclared := checkRam_eq_ok_iff.mp ramChecked
  constructor
  · constructor
    · exact Header.two_le_romBanks declared
    · rw [← held]
      exact Nat.div_mul_le_self _ _
    · rw [ofChecked, Array.size_replicate]
      exact Header.ramLayout_reaches layoutDeclared
  · rfl

theorem of_madeFrom
    {original : Array UInt8}
    {made : Cartridge}
    (madeFrom : MadeFrom original made) :
    made.Shaped := by
  cases madeFrom with
  | load loaded => exact (load loaded).1
  | ofBytes => exact ofBytes original
  | blank => exact blank

/-- A cartridge stays in shape while its sizes stay the same. -/
theorem of_keeps
    {earlier later : Cartridge}
    (shaped : earlier.Shaped)
    (keeps : Keeps earlier later) :
    later.Shaped where
  twoBanks := keeps.romBanks ▸ shaped.twoBanks
  romHeld := keeps.romBanks ▸ keeps.rom ▸ shaped.romHeld
  ramReaches := keeps.ramBanks ▸ keeps.ramSize ▸ shaped.ramReaches

variable {cartridge : Cartridge}

/-- The bank in the upper window lies inside the ROM. -/
theorem romBank_inside (shaped : cartridge.Shaped) :
    (cartridge.romBank + 1) * romBankSize ≤ cartridge.rom.size :=
  have inRange : cartridge.romBank + 1 ≤ cartridge.romBanks :=
    (cartridge.controller.romBank_range shaped.twoBanks).2
  Nat.le_trans (Nat.mul_le_mul_right romBankSize inRange) shaped.romHeld

/-- The bank in view starts inside the RAM, if there is one. -/
theorem ramStart_lt
    (shaped : cartridge.Shaped)
    (present : cartridge.ram.size ≠ 0) :
    cartridge.ramStart < cartridge.ram.size := by
  have notPastLast : cartridge.ramBank ≤ cartridge.ramBanks - 1 := by
    have inRange :
        cartridge.ramBank = 0 ∨ cartridge.ramBank < cartridge.ramBanks :=
      cartridge.controller.ramBank_range
    omega
  calc
    cartridge.ramStart ≤ (cartridge.ramBanks - 1) * ramBankSize :=
      Nat.mul_le_mul_right ramBankSize notPastLast
    _ < cartridge.ram.size := shaped.ramReaches present

/-- The bank in view is a part of the RAM that is not empty, if there is a RAM. -/
theorem ramBank_inside
    (shaped : cartridge.Shaped)
    (present : cartridge.ram.size ≠ 0) :
    0 < cartridge.ramLength ∧
      cartridge.ramLength ≤ ramBankSize ∧
      cartridge.ramStart + cartridge.ramLength ≤ cartridge.ram.size := by
  have starts := shaped.ramStart_lt present
  have size : ramBankSize = 0x2000 := rfl
  unfold ramLength
  omega

/-- The banks in view are in range. -/
theorem inRange (shaped : cartridge.Shaped) : cartridge.InRange where
  notFirst := (cartridge.controller.romBank_range shaped.twoBanks).1
  romBank := (cartridge.controller.romBank_range shaped.twoBanks).2
  romInside := shaped.romBank_inside
  ramBank := cartridge.controller.ramBank_range
  ramInside := shaped.ramBank_inside

end Shaped

/-- A stretch of bytes has those bytes, as far as there are any. -/
theorem getElem?_stretch
    (bytes : Array UInt8)
    (first count offset : Nat) :
    (bytes.extract first (first + count))[offset]? =
      if offset < count then bytes[first + offset]? else none := by
  rw [Array.getElem?_extract]
  by_cases inside : offset < count
  · rw [if_pos inside]
    split
    · rfl
    · rw [Array.getElem?_eq_none]
      omega
  · rw [if_neg inside, if_neg (by omega)]

/-- Bytes that are filled up with zeros read as before, and as zero behind their end. -/
theorem getD_append_zeros
    (bytes : Array UInt8)
    (count index : Nat) :
    (bytes ++ Array.replicate count 0).getD index 0 =
      bytes.getD index 0 := by
  simp only [Array.getD_eq_getD_getElem?, Array.getElem?_append,
    Array.getElem?_replicate]
  by_cases inside : index < bytes.size
  · rw [if_pos inside]
  · rw [if_neg inside, Array.getElem?_eq_none (Nat.le_of_not_lt inside)]
    split <;> rfl

/-- The ROM of a new cartridge holds the bytes that it was made from, and zeros. -/
theorem MadeFrom.romByte
    {original : Array UInt8}
    {made : Cartridge}
    (madeFrom : MadeFrom original made)
    (index : Nat) :
    made.rom.getD index 0 = original.getD index 0 := by
  cases madeFrom with
  | load loaded => rw [(Shaped.load loaded).2]
  | ofBytes => exact getD_append_zeros original _ index
  | blank =>
      have zeros := getD_append_zeros #[] (2 * romBankSize) index
      rwa [Array.empty_append] at zeros

end Cartridge

end Dmg
