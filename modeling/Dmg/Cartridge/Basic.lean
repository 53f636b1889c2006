namespace Dmg

/-!
# Cartridges and their banks

A cartridge shows its ROM and its RAM through windows of one bank each.  A plain
cartridge has fixed windows; a controller of the kind MBC1 has four registers, set
by stores into the address range of the ROM, that say which banks are shown.
-/

/-- What the two high bits of the bank number belong to. -/
inductive BankingMode where
  /-- They extend the number of the ROM bank. -/
  | rom
  /-- They are the number of the RAM bank. -/
  | ram
  deriving Repr, DecidableEq

/-- The registers of an MBC1 controller. -/
structure Mbc1 where
  romSelect : UInt8
  ramSelect : UInt8
  mode : BankingMode
  ramEnabled : Bool
  deriving Repr, DecidableEq

namespace Mbc1

/-- The registers at power-on. -/
def powerOn : Mbc1 where
  romSelect := 1
  ramSelect := 0
  mode := .rom
  ramEnabled := false

/-- The selector that is stored for a wanted one: 0, 20, 40 and 60 are skipped. -/
def skipReserved (selector : UInt8) : UInt8 :=
  if selector = 0 ∨ selector = 20 ∨ selector = 40 ∨ selector = 60 then
    selector + 1
  else
    selector

/-- Set the low bits of the ROM selector, keeping its two high bits set. -/
def selectRom
    (value : UInt8)
    (registers : Mbc1) :
    Mbc1 :=
  { registers with
    romSelect :=
      skipReserved (((registers.romSelect &&& 0x60) ||| value) &&& 0x7F) }

/-- Replace the two high bits of a ROM selector; a selector of zero becomes one. -/
def withHighBits (selector value : UInt8) : UInt8 :=
  let combined := (selector &&& 0x1F) ||| ((value &&& 0x03) <<< (5 : UInt8))
  if combined = 0 then 1 else combined

/-- Set the two bits that the mode assigns to one of the selectors. -/
def selectHigh
    (value : UInt8)
    (registers : Mbc1) :
    Mbc1 :=
  match registers.mode with
  | .rom =>
      { registers with romSelect := withHighBits registers.romSelect value }
  | .ram =>
      { registers with ramSelect := value &&& 0x03 }

/-- Store into a register of the controller; each owns a quarter of the range. -/
def write
    (address : UInt16)
    (value : UInt8)
    (registers : Mbc1) :
    Mbc1 :=
  if address < 0x2000 then
    { registers with ramEnabled := value &&& 0x0F == 0x0A }
  else if address < 0x4000 then
    registers.selectRom value
  else if address < 0x6000 then
    registers.selectHigh value
  else if address < 0x8000 then
    { registers with mode := if value &&& 0x01 = 0 then .rom else .ram }
  else
    registers

end Mbc1

/-- The controller of a cartridge. -/
inductive Controller where
  | romOnly
  | mbc1 (registers : Mbc1)
  deriving Repr, DecidableEq

namespace Controller

/-- The name of the kind of controller. -/
def name : Controller → String
  | .romOnly => "RomOnly"
  | .mbc1 _ => "Mbc1"

/-- Store into the controller's address range. -/
def write
    (address : UInt16)
    (value : UInt8) :
    Controller → Controller
  | .romOnly => .romOnly
  | .mbc1 registers => .mbc1 (registers.write address value)

/-- The controller with its registers as at power-on. -/
def reset : Controller → Controller
  | .romOnly => .romOnly
  | .mbc1 _ => .mbc1 .powerOn

/-- The ROM bank in the upper window, of so many banks; bank 0 is never shown there. -/
def romBank
    (banks : Nat) :
    Controller → Nat
  | .romOnly => 1
  | .mbc1 registers =>
      let bank := registers.romSelect.toNat % banks
      if bank = 0 then 1 else bank

/-- The RAM bank that is shown, of so many banks. -/
def ramBank
    (banks : Nat) :
    Controller → Nat
  | .romOnly => 0
  | .mbc1 registers =>
      if banks = 0 then
        0
      else
        registers.ramSelect.toNat % banks

end Controller

/-!
## Cartridges

A cartridge holds a ROM that never changes, a RAM that may be absent, and a
controller that selects the banks in view.  Bank 0 of the ROM is always in view,
and a second bank beside it; the RAM has one bank in view, shorter than the window
if the RAM is.
-/

/-- A cartridge with what its header says about it. -/
structure Cartridge where
  rom : Array UInt8
  ram : Array UInt8
  romBanks : Nat
  ramBanks : Nat
  controller : Controller
  title : String
  /-- Whether the cartridge declares colour functions. -/
  colour : Bool
  destination : UInt8
  battery : Bool

namespace Cartridge

/-- Bytes in one ROM bank. -/
def romBankSize : Nat :=
  0x4000

/-- Bytes in one RAM bank. -/
def ramBankSize : Nat :=
  0x2000

/-- Two banks of zeros, without controller and RAM. -/
def blank : Cartridge where
  rom := Array.replicate (2 * romBankSize) 0
  ram := #[]
  romBanks := 2
  ramBanks := 0
  controller := .romOnly
  title := ""
  colour := false
  destination := 0
  battery := false

/-- The whole banks, at least two, that so many bytes need. -/
def banksFor (size : Nat) : Nat :=
  max 2 ((size + (romBankSize - 1)) / romBankSize)

/-- A cartridge over bytes without a header, filled up with zeros to whole banks. -/
def ofBytes (bytes : Array UInt8) : Cartridge :=
  let banks := banksFor bytes.size
  { blank with
    rom :=
      bytes ++ Array.replicate (banks * romBankSize - bytes.size) 0
    romBanks := banks }

/-- The ROM bank in the upper window. -/
def romBank (cartridge : Cartridge) : Nat :=
  cartridge.controller.romBank cartridge.romBanks

/-- The RAM bank in view. -/
def ramBank (cartridge : Cartridge) : Nat :=
  cartridge.controller.ramBank cartridge.ramBanks

/-- Whether the RAM answers.  Without a controller it answers if it is there. -/
def ramEnabled (cartridge : Cartridge) : Bool :=
  match cartridge.controller with
  | .romOnly => !cartridge.ram.isEmpty
  | .mbc1 registers => registers.ramEnabled

/-- A byte of a ROM bank. -/
def romByte
    (cartridge : Cartridge)
    (bank offset : Nat) :
    UInt8 :=
  cartridge.rom.getD (bank * romBankSize + offset) 0

/-- A byte of the lower ROM window. -/
def lowerRom
    (cartridge : Cartridge)
    (offset : Nat) :
    UInt8 :=
  cartridge.romByte 0 offset

/-- A byte of the upper ROM window. -/
def upperRom
    (cartridge : Cartridge)
    (offset : Nat) :
    UInt8 :=
  cartridge.romByte cartridge.romBank offset

/-- The bytes of a ROM bank. -/
def romBankBytes
    (cartridge : Cartridge)
    (bank : Nat) :
    Array UInt8 :=
  cartridge.rom.extract (bank * romBankSize) ((bank + 1) * romBankSize)

/-- Where the RAM bank in view starts. -/
def ramStart (cartridge : Cartridge) : Nat :=
  cartridge.ramBank * ramBankSize

/-- The length of the RAM bank in view; a small RAM has a short bank. -/
def ramLength (cartridge : Cartridge) : Nat :=
  min ramBankSize (cartridge.ram.size - cartridge.ramStart)

/-- The bytes of the RAM bank in view, if the cartridge has a RAM. -/
def ramBankBytes? (cartridge : Cartridge) : Option (Array UInt8) :=
  if cartridge.ram.isEmpty then
    none
  else
    some
      (cartridge.ram.extract cartridge.ramStart
        (cartridge.ramStart + cartridge.ramLength))

/-- The place in the RAM of an offset in the bank in view, if it lies inside. -/
def ramIndex?
    (cartridge : Cartridge)
    (offset : Nat) :
    Option Nat :=
  if offset < cartridge.ramLength then
    some (cartridge.ramStart + offset)
  else
    none

/-- Read the bank in view; all bits are set where no RAM answers. -/
def readRam
    (cartridge : Cartridge)
    (offset : Nat) :
    UInt8 :=
  if cartridge.ramEnabled then
    ((cartridge.ramIndex? offset).bind (cartridge.ram[·]?)).getD 0xFF
  else
    0xFF

/-- Store into the bank in view, whether or not the RAM answers. -/
def setRam
    (cartridge : Cartridge)
    (offset : Nat)
    (value : UInt8) :
    Cartridge :=
  match cartridge.ramIndex? offset with
  | some index =>
      { cartridge with ram := cartridge.ram.setIfInBounds index value }
  | none => cartridge

/-- Write the bank in view; nothing happens while the RAM does not answer. -/
def writeRam
    (cartridge : Cartridge)
    (offset : Nat)
    (value : UInt8) :
    Cartridge :=
  if cartridge.ramEnabled then
    cartridge.setRam offset value
  else
    cartridge

/-- The first address of the RAM window. -/
def ramWindow : UInt16 :=
  0xA000

/-- Read an address of the RAM window; all bits are set at other addresses. -/
def readRamAt
    (cartridge : Cartridge)
    (address : UInt16) :
    UInt8 :=
  if ramWindow ≤ address then
    cartridge.readRam (address - ramWindow).toNat
  else
    0xFF

/-- Write an address of the RAM window; nothing happens at other addresses. -/
def writeRamAt
    (cartridge : Cartridge)
    (address : UInt16)
    (value : UInt8) :
    Cartridge :=
  if ramWindow ≤ address then
    cartridge.writeRam (address - ramWindow).toNat value
  else
    cartridge

/-- Store into the controller's address range. -/
def writeControl
    (cartridge : Cartridge)
    (address : UInt16)
    (value : UInt8) :
    Cartridge :=
  { cartridge with
    controller := cartridge.controller.write address value }

/-- Return the controller to its state at power-on; the RAM keeps its bytes. -/
def resetBanking (cartridge : Cartridge) : Cartridge :=
  { cartridge with controller := cartridge.controller.reset }

end Cartridge

end Dmg
