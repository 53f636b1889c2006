import Dmg.Cartridge.Basic
import Dmg.Peripherals

namespace Dmg

/-!
# The memory map and the bus

Every address leads to one location: a byte of one of the memories, a register, or
nothing.  The addresses from 0xE000 to 0xFDFF lead to the same bytes of work RAM as
those from 0xC000 to 0xDDFF; no other two addresses share a byte.
-/

/-- What an address leads to. -/
inductive Location where
  /-- A byte of the ROM bank that is always in view. -/
  | lowerRom (offset : Fin 0x4000)
  /-- A byte of the ROM bank that the controller selects. -/
  | upperRom (offset : Fin 0x4000)
  | videoRam (offset : Fin 0x2000)
  /-- A byte of the window of the cartridge RAM. -/
  | cartridgeRam (offset : Fin 0x2000)
  | workRam (offset : Fin 0x2000)
  | objectMemory (offset : Fin 0xA0)
  /-- An address of the register page, whether or not a register answers there. -/
  | register (address : UInt16)
  /-- Nothing: reads find all bits set and writes are lost. -/
  | vacant
  | highRam (offset : Fin 0x7F)
  /-- The register of enabled interrupt sources. -/
  | interruptEnable
  deriving Repr, DecidableEq

namespace Location

/-- The location that an address leads to. -/
def ofAddress (address : UInt16) : Location :=
  let place := address.toNat
  if inLowerRom : place < 0x4000 then
    .lowerRom ⟨place, inLowerRom⟩
  else if inUpperRom : place < 0x8000 then
    .upperRom ⟨place - 0x4000, by omega⟩
  else if inVideoRam : place < 0xA000 then
    .videoRam ⟨place - 0x8000, by omega⟩
  else if inCartridgeRam : place < 0xC000 then
    .cartridgeRam ⟨place - 0xA000, by omega⟩
  else if inWorkRam : place < 0xE000 then
    .workRam ⟨place - 0xC000, by omega⟩
  else if inEcho : place < 0xFE00 then
    .workRam ⟨place - 0xE000, by omega⟩
  else if inObjectMemory : place < 0xFEA0 then
    .objectMemory ⟨place - 0xFE00, by omega⟩
  else if place < 0xFF00 then
    .vacant
  else if place < 0xFF4C then
    .register address
  else if place < 0xFF80 then
    .vacant
  else if inHighRam : place < 0xFFFF then
    .highRam ⟨place - 0xFF80, by omega⟩
  else
    .interruptEnable

end Location

/-!
## The bus

The bus owns every memory that the processor can reach, together with the
cartridge and the register page.  A read can fail, and only on the register page;
a write never fails.
-/

/-- The memories, the cartridge and the units that answer to an address. -/
structure Bus where
  workRam : Vector UInt8 0x2000
  videoRam : Vector UInt8 0x2000
  highRam : Vector UInt8 0x7F
  objectMemory : Vector UInt8 0xA0
  interruptEnable : UInt8
  cartridge : Cartridge
  peripherals : Peripherals

namespace Bus

/-- Cleared memories and units at power-on around a cartridge. -/
def powerOn (cartridge : Cartridge) : Bus where
  workRam := Vector.replicate 0x2000 0
  videoRam := Vector.replicate 0x2000 0
  highRam := Vector.replicate 0x7F 0
  objectMemory := Vector.replicate 0xA0 0
  interruptEnable := 0
  cartridge := cartridge
  peripherals := .powerOn

/-- Read a location. -/
def readLocation (bus : Bus) : Location → Except Fault UInt8
  | .lowerRom offset => .ok (bus.cartridge.lowerRom offset.val)
  | .upperRom offset => .ok (bus.cartridge.upperRom offset.val)
  | .videoRam offset => .ok (bus.videoRam.get offset)
  | .cartridgeRam offset => .ok (bus.cartridge.readRam offset.val)
  | .workRam offset => .ok (bus.workRam.get offset)
  | .objectMemory offset => .ok (bus.objectMemory.get offset)
  | .register address => bus.peripherals.read address
  | .vacant => .ok 0xFF
  | .highRam offset => .ok (bus.highRam.get offset)
  | .interruptEnable => .ok bus.interruptEnable

/-- Read an address. -/
def read
    (bus : Bus)
    (address : UInt16) :
    Except Fault UInt8 :=
  bus.readLocation (.ofAddress address)

/--
Write an address.  A store into the ROM sets a register of the cartridge's
controller and leaves the ROM as it is.
-/
def write
    (bus : Bus)
    (address : UInt16)
    (value : UInt8) :
    Bus :=
  match Location.ofAddress address with
  | .lowerRom _ | .upperRom _ =>
      { bus with cartridge := bus.cartridge.writeControl address value }
  | .videoRam offset =>
      { bus with videoRam := bus.videoRam.set offset.val value offset.isLt }
  | .cartridgeRam offset =>
      { bus with cartridge := bus.cartridge.writeRam offset.val value }
  | .workRam offset =>
      { bus with workRam := bus.workRam.set offset.val value offset.isLt }
  | .objectMemory offset =>
      { bus with objectMemory := bus.objectMemory.set offset.val value offset.isLt }
  | .register registerAddress =>
      { bus with
        peripherals := bus.peripherals.write registerAddress value }
  | .vacant => bus
  | .highRam offset =>
      { bus with highRam := bus.highRam.set offset.val value offset.isLt }
  | .interruptEnable => { bus with interruptEnable := value }

/--
The notice that a write gives rise to.  Stores into the upper ROM window are also
offered to the register page, where no register takes them.
-/
def noticeOfWrite?
    (address : UInt16)
    (value : UInt8) :
    Option Notice :=
  match Location.ofAddress address with
  | .upperRom _ | .register _ => Peripherals.noticeOfWrite? address value
  | _ => none

end Bus

end Dmg
