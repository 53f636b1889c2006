import Dmg.Proofs.CartridgeHistory

namespace Dmg

/-!
# Reserved ROM banks

A store into the low register of the controller steps over the selectors 0, 20, 40 and 60.
A store into the high register replaces the two high bits of the selector and steps over
0 alone.  So bank 0 is never in the upper window, and of the other three each is there
exactly if the latest store that set the selector has formed it out of the high bits;
from every state, stores can bring that about.
-/

namespace Mbc1

/-- The selectors, apart from 0, that a store into the low register steps over. -/
def reserved : List UInt8 :=
  [20, 40, 60]

/-- A store that sets the ROM selector, by its register, with what it leaves there. -/
inductive RomStore where
  | low (selector : UInt8)
  | high (selector : UInt8)
  deriving Repr, DecidableEq

/-- The selector that a store leaves. -/
def RomStore.selector : RomStore → UInt8
  | .low selector => selector
  | .high selector => selector

/--
How a store sets the ROM selector, if it does: through the low register always, through
the high one while the high bits belong to the ROM.
-/
def romStore?
    (registers : Mbc1)
    (address : UInt16)
    (value : UInt8) :
    Option RomStore :=
  if address < 0x2000 then
    none
  else if address < 0x4000 then
    some (.low (registers.selectRom value).romSelect)
  else if address < 0x6000 then
    match registers.mode with
    | .rom => some (.high (withHighBits registers.romSelect value))
    | .ram => none
  else
    none

/-- The latest of several stores that sets the ROM selector. -/
def latestRomStore? :
    Mbc1 →
    List (UInt16 × UInt8) →
    Option RomStore
  | _, [] => none
  | registers, store :: rest =>
      (latestRomStore? (registers.write store.1 store.2) rest).or
        (registers.romStore? store.1 store.2)

/-- What several stores make of the registers. -/
def afterStores
    (registers : Mbc1)
    (stores : List (UInt16 × UInt8)) :
    Mbc1 :=
  stores.foldl
    (fun current store => current.write store.1 store.2) registers

/-- A store sets the ROM selector as it says, or leaves it. -/
theorem write_romSelect
    (registers : Mbc1)
    (address : UInt16)
    (value : UInt8) :
    (registers.write address value).romSelect =
      ((registers.romStore? address value).map RomStore.selector).getD
        registers.romSelect := by
  unfold write romStore?
  split
  · rfl
  · split
    · rfl
    · split
      · unfold selectHigh
        cases registers.mode <;> rfl
      · split <;> rfl

/-- Several stores leave the ROM selector as the latest that sets it does. -/
theorem afterStores_romSelect
    (registers : Mbc1)
    (stores : List (UInt16 × UInt8)) :
    (registers.afterStores stores).romSelect =
      ((registers.latestRomStore? stores).map RomStore.selector).getD
        registers.romSelect := by
  induction stores generalizing registers with
  | nil => rfl
  | cons store rest inductionHypothesis =>
      have later := inductionHypothesis (registers.write store.1 store.2)
      rw [latestRomStore?]
      cases latest :
          (registers.write store.1 store.2).latestRomStore? rest with
      | none =>
          rw [latest] at later
          exact later.trans (write_romSelect registers store.1 store.2)
      | some store =>
          rw [latest] at later
          exact later

/-- What is left in place of a selector is none of those that are stepped over. -/
theorem skipReserved_not_reserved (selector : UInt8) :
    skipReserved selector ∉ reserved ∧ skipReserved selector ≠ 0 := by
  unfold skipReserved
  split
  case isTrue skipped =>
    rcases skipped with rfl | rfl | rfl | rfl <;> decide
  case isFalse kept =>
    simpa [reserved, and_comm] using kept

/-- Stepping over a selector does not leave the seven bits of selectors. -/
theorem skipReserved_lt
    {selector : UInt8}
    (sevenBits : selector.toNat < 0x80) :
    (skipReserved selector).toNat < 0x80 := by
  unfold skipReserved
  split
  case isTrue skipped =>
    rcases skipped with rfl | rfl | rfl | rfl <;> decide
  case isFalse => exact sevenBits

theorem withHighBits_ne_zero (selector value : UInt8) :
    withHighBits selector value ≠ 0 := by
  unfold withHighBits
  dsimp only
  split
  case isTrue => decide
  case isFalse formed => exact formed

theorem withHighBits_lt (selector value : UInt8) :
    (withHighBits selector value).toNat < 0x80 := by
  have low : selector.toNat &&& 0x1F < 2 ^ 7 :=
    Nat.lt_of_le_of_lt Nat.and_le_right (by decide)
  have high : (value.toNat &&& 0x03) <<< 5 < 2 ^ 7 := by
    have twoBits : value.toNat &&& 0x03 ≤ 0x03 := Nat.and_le_right
    rw [Nat.shiftLeft_eq]
    omega
  have formed :
      ((selector &&& 0x1F) ||| ((value &&& 0x03) <<< (5 : UInt8))).toNat <
        2 ^ 7 := by
    simp only [UInt8.toNat_or, UInt8.toNat_and, UInt8.toNat_shiftLeft]
    exact Nat.or_lt_two_pow low (Nat.lt_of_le_of_lt (Nat.mod_le _ _) high)
  unfold withHighBits
  dsimp only
  split
  · decide
  · exact formed

/-- A store that sets the ROM selector does it through one of the two registers. -/
theorem romStore?_cases
    {registers : Mbc1}
    {address : UInt16}
    {value : UInt8}
    {store : RomStore}
    (sets : registers.romStore? address value = some store) :
    store = .low (registers.selectRom value).romSelect ∨
      store = .high (withHighBits registers.romSelect value) := by
  unfold romStore? at sets
  split at sets
  · cases sets
  · split at sets
    · exact .inl (Option.some.inj sets).symm
    · split at sets
      · cases mode : registers.mode with
        | rom =>
            rw [mode] at sets
            exact .inr (Option.some.inj sets).symm
        | ram =>
            rw [mode] at sets
            cases sets
      · cases sets

/-- The latest store to set the ROM selector is one of the two kinds. -/
theorem latestRomStore?_cases
    {registers : Mbc1}
    {stores : List (UInt16 × UInt8)}
    {latest : RomStore}
    (sets : registers.latestRomStore? stores = some latest) :
    ∃ (before : Mbc1) (value : UInt8),
      latest = .low (before.selectRom value).romSelect ∨
        latest = .high (withHighBits before.romSelect value) := by
  induction stores generalizing registers with
  | nil => cases sets
  | cons store rest inductionHypothesis =>
      rw [latestRomStore?] at sets
      cases later :
          (registers.write store.1 store.2).latestRomStore? rest with
      | some found =>
          rw [later] at sets
          exact inductionHypothesis (later.trans sets)
      | none =>
          rw [later, Option.none_or] at sets
          exact ⟨registers, store.2, romStore?_cases sets⟩

/-- The low register leaves no reserved selector. -/
theorem not_reserved_of_low
    {registers : Mbc1}
    {stores : List (UInt16 × UInt8)}
    {selector : UInt8}
    (sets : registers.latestRomStore? stores = some (.low selector)) :
    selector ∉ reserved := by
  obtain ⟨before, value, low | high⟩ := latestRomStore?_cases sets
  · cases low
    exact (skipReserved_not_reserved _).1
  · cases high

/-- What sets the ROM selector leaves seven bits that are not all zero. -/
theorem latestRomStore?_range
    {registers : Mbc1}
    {stores : List (UInt16 × UInt8)}
    {latest : RomStore}
    (sets : registers.latestRomStore? stores = some latest) :
    latest.selector ≠ 0 ∧ latest.selector.toNat < 0x80 := by
  obtain ⟨before, value, rfl | rfl⟩ := latestRomStore?_cases sets
  · have sevenBits :
        (((before.romSelect &&& 0x60) ||| value) &&& 0x7F).toNat < 0x80 := by
      rw [UInt8.toNat_and]
      exact Nat.lt_of_le_of_lt Nat.and_le_right (by decide)
    exact ⟨(skipReserved_not_reserved _).2, skipReserved_lt sevenBits⟩
  · exact ⟨withHighBits_ne_zero _ _, withHighBits_lt _ _⟩

/-- The ROM selector is a bank of a full ROM, and never bank 0. -/
theorem romSelect_range (stores : List (UInt16 × UInt8)) :
    (powerOn.afterStores stores).romSelect ≠ 0 ∧
      (powerOn.afterStores stores).romSelect.toNat < 0x80 := by
  rw [afterStores_romSelect]
  cases latest : powerOn.latestRomStore? stores with
  | none => decide
  | some store => exact latestRomStore?_range latest

/-- A reserved selector is there exactly if it was formed out of the high bits. -/
theorem romSelect_eq_reserved_iff
    (stores : List (UInt16 × UInt8))
    {bank : UInt8}
    (isReserved : bank ∈ reserved) :
    (powerOn.afterStores stores).romSelect = bank ↔
      powerOn.latestRomStore? stores = some (.high bank) := by
  rw [afterStores_romSelect]
  cases latest : powerOn.latestRomStore? stores with
  | none =>
      have notFirst : powerOn.romSelect ≠ bank := by
        rintro rfl
        exact absurd isReserved (by decide)
      simpa using notFirst
  | some store =>
      cases store with
      | low selector =>
          have other : selector ≠ bank := by
            rintro rfl
            exact not_reserved_of_low latest isReserved
          simpa [RomStore.selector] using other
      | high selector => simp [RomStore.selector]

/-- Bits of a mask that a byte has add nothing to the mask. -/
theorem and_or_same (byte bits : UInt8) :
    (byte &&& bits) ||| bits = bits := by
  apply UInt8.toBitVec_inj.mp
  ext index
  simp only [UInt8.toBitVec_and, UInt8.toBitVec_or, BitVec.getElem_and,
    BitVec.getElem_or]
  cases bits.toBitVec[index] <;> simp

/--
Stores that bring a selector about: the mode first, then the low bits, below high bits
that are both set and so lead past all selectors that are stepped over, then the high
bits.
-/
def selecting (selector : UInt8) : List (UInt16 × UInt8) :=
  [(0x6000, 0), (0x2000, 0x60 ||| selector), (0x4000, selector >>> 5)]

/-- Every selector but 0 can be brought about, whatever the registers are. -/
theorem afterStores_selecting
    (registers : Mbc1)
    {selector : UInt8}
    (notZero : selector ≠ 0)
    (sevenBits : selector.toNat < 0x80) :
    (registers.afterStores (selecting selector)).romSelect = selector := by
  have formed :
      ∀ low : Fin 0x80,
        UInt8.ofNat low ≠ 0 →
          withHighBits
              (skipReserved ((0x60 ||| UInt8.ofNat low) &&& 0x7F))
              (UInt8.ofNat low >>> 5) =
            UInt8.ofNat low := by
    decide +kernel
  -- The low store sets both high bits whatever they were, so only the wanted one counts.
  have highBits :
      (registers.romSelect &&& 0x60) ||| (0x60 ||| selector) =
        0x60 ||| selector := by
    rw [← UInt8.or_assoc, and_or_same]
  calc
    (registers.afterStores (selecting selector)).romSelect =
        withHighBits
          (skipReserved
            (((registers.romSelect &&& 0x60) ||| (0x60 ||| selector)) &&&
              0x7F))
          (selector >>> 5) :=
      rfl
    _ = selector := by
      rw [highBits]
      simpa using formed ⟨selector.toNat, sevenBits⟩ (by simpa using notZero)

end Mbc1

namespace Cartridge

/-- Stores into the address range of the ROM. -/
def controlStores (stores : List (UInt16 × UInt8)) : List Operation :=
  stores.map (fun store => .control store.1 store.2)

/-- Stores into the address range of the ROM reach the registers of the controller. -/
theorem controller_afterAll_controlStores
    {cartridge : Cartridge}
    {registers : Mbc1}
    (banked : cartridge.controller = .mbc1 registers)
    (stores : List (UInt16 × UInt8)) :
    (cartridge.afterAll (controlStores stores)).controller =
      .mbc1 (registers.afterStores stores) := by
  induction stores generalizing cartridge registers with
  | nil => exact banked
  | cons store rest inductionHypothesis =>
      have stored :
          (cartridge.apply (.control store.1 store.2)).controller =
            .mbc1 (registers.write store.1 store.2) := by
        rw [apply, writeControl, banked]
        rfl
      exact inductionHypothesis stored

/-- A cartridge that has been loaded has the controller as it is at power-on. -/
theorem controller_of_load
    {image : Image}
    {made : Cartridge}
    (loaded : load image = .ok made)
    (banked : made.controller ≠ .romOnly) :
    made.controller = .mbc1 .powerOn := by
  obtain ⟨-, -, banks, layout, controller, -, -, kind, rfl⟩ :=
    load_eq_ok_iff.mp loaded
  have kept : controller ≠ .romOnly := banked
  unfold checkKind at kind
  dsimp only at kind
  split at kind
  · exact absurd (Except.ok.inj kind).symm kept
  · split at kind
    · exact (Except.ok.inj kind).symm
    · cases kind

/-- A cartridge that has been loaded has the ROM banks that its header declares. -/
theorem romBanks_of_load
    {image : Image}
    {made : Cartridge}
    (loaded : load image = .ok made) :
    Header.romBanks? (Header.romSizeCode image) = some made.romBanks := by
  obtain ⟨-, -, banks, layout, controller, rom, -, -, rfl⟩ :=
    load_eq_ok_iff.mp loaded
  exact (checkRom_eq_ok_iff.mp rom).1

/-- On a full ROM the bank in view is the one that the selector names. -/
theorem romBank_full
    {cartridge : Cartridge}
    {stores : List (UInt16 × UInt8)}
    (full : cartridge.romBanks = 0x80)
    (selected :
      cartridge.controller = .mbc1 (Mbc1.powerOn.afterStores stores)) :
    cartridge.romBank =
      (Mbc1.powerOn.afterStores stores).romSelect.toNat := by
  obtain ⟨notFirst, inRange⟩ := Mbc1.romSelect_range stores
  rw [romBank, full, selected, Controller.romBank,
    Nat.mod_eq_of_lt inRange, if_neg]
  intro first
  exact notFirst (UInt8.toNat_inj.mp first)

/--
Of a cartridge with a controller and 128 ROM banks, stores never bring bank 0 into the
upper window.  The banks 20, 40 and 60 are there exactly if the latest store that set
the selector did so through the high register and formed that number; and like every
other bank they can be brought into view at any time.
-/
theorem reserved_bank_in_view_iff
    {image : Image}
    {made : Cartridge}
    (loaded : load image = .ok made)
    (sizeCode : Header.romSizeCode image = 0x06)
    (banked : made.controller ≠ .romOnly)
    (stores : List (UInt16 × UInt8)) :
    let view := fun stores =>
      (made.afterAll (controlStores stores)).romBank
    view stores ≠ 0 ∧
      (∀ bank ∈ Mbc1.reserved,
        view stores = bank.toNat ↔
          Mbc1.powerOn.latestRomStore? stores = some (.high bank)) ∧
      ∀ bank : UInt8, bank ≠ 0 → bank.toNat < 0x80 →
        view (stores ++ Mbc1.selecting bank) = bank.toNat := by
  have powerOn := controller_of_load loaded banked
  have full : made.romBanks = 0x80 := by
    have declared := romBanks_of_load loaded
    rw [sizeCode] at declared
    exact (Option.some.inj declared).symm
  have shown (stores : List (UInt16 × UInt8)) :
      (made.afterAll (controlStores stores)).romBank =
        (Mbc1.powerOn.afterStores stores).romSelect.toNat :=
    romBank_full ((Keeps.afterAll made _).romBanks.trans full)
      (controller_afterAll_controlStores powerOn stores)
  dsimp only
  refine ⟨?_, ?_, ?_⟩
  · rw [shown]
    intro first
    exact (Mbc1.romSelect_range stores).1 (UInt8.toNat_inj.mp first)
  · intro bank isReserved
    rw [shown, UInt8.toNat_inj]
    exact Mbc1.romSelect_eq_reserved_iff stores isReserved
  · intro bank notFirst sevenBits
    have formed :
        Mbc1.powerOn.afterStores (stores ++ Mbc1.selecting bank) =
          (Mbc1.powerOn.afterStores stores).afterStores
            (Mbc1.selecting bank) :=
      List.foldl_append
    rw [shown, formed, Mbc1.afterStores_selecting _ notFirst sevenBits]

/-- An image of 128 banks with an MBC1 controller: a header, then zeros. -/
def fullImage : Image :=
  declaring 0x06 ++ Array.replicate (0x80 * romBankSize - Header.size) 0

theorem load_fullImage :
    load fullImage =
      .ok (ofChecked fullImage 0x80 ⟨4, 0x8000⟩ (.mbc1 .powerOn)) :=
  load_declaring (show Header.romBanks? 0x06 = some 0x80 from rfl)

theorem romSizeCode_fullImage : Header.romSizeCode fullImage = 0x06 :=
  (byte_headed (declaring 0x06) _ 0x0148).trans
    (romSizeCode_declaring 0x06)

/-- Low bits 20 with high bits, which are then cleared, are bank 20 in view. -/
theorem reserved_bank_in_view_twenty :
    ∃ made,
      load fullImage = .ok made ∧
        (made.afterAll
            (controlStores [(0x2000, 0x34), (0x4000, 0)])).romBank = 20 := by
  have view :=
    reserved_bank_in_view_iff load_fullImage romSizeCode_fullImage
      Controller.noConfusion [(0x2000, 0x34), (0x4000, 0)]
  exact ⟨_, load_fullImage, (view.2.1 20 (by decide)).mpr (by decide)⟩

/-- Bank 8 with a high bit added to it is bank 40 in view, which is not stepped over. -/
theorem forty_in_view :
    ∃ made,
      load fullImage = .ok made ∧
        Header.romSizeCode fullImage = 0x06 ∧
        made.controller = .mbc1 .powerOn ∧
        ((made.writeControl 0x2000 8).writeControl 0x4000 1).romBank =
          40 :=
  ⟨_, load_fullImage, romSizeCode_fullImage, rfl, rfl⟩

end Cartridge

end Dmg
