import Dmg.Bus.Basic

namespace Dmg

/-!
# Object memory and the views of a renderer

A value other than zero in the transfer register asks for a copy of 160 bytes from
the page of that number into object memory.  The copy takes no time.  It clears the
register when it is complete; a fault on the way leaves the bytes copied so far and
the register as it was.
-/

namespace Bus

/-- The bus after a transfer, and the fault that cut it short. -/
structure Transferred where
  bus : Bus
  fault : Option Fault

/-- The first address of a page. -/
def pageStart (page : UInt8) : UInt16 :=
  page.toUInt16 <<< 8

/-- Copy the bytes at some offsets, each read from the bus as the copy left it. -/
def copyToObjectMemory
    (source : UInt16) :
    List (Fin 0xA0) →
    Bus →
    Transferred
  | [], bus => ⟨bus, none⟩
  | offset :: offsets, bus =>
      match bus.read (source + UInt16.ofNat offset.val) with
      | .ok value =>
          copyToObjectMemory source offsets
            { bus with
              objectMemory :=
                bus.objectMemory.set offset.val value offset.isLt }
      | .error fault => ⟨bus, some fault⟩

/-- Withdraw the request for a transfer. -/
def clearTransfer (bus : Bus) : Bus :=
  { bus with peripherals := { bus.peripherals with transferPage := 0 } }

/-- Carry out the transfer that is asked for, if any. -/
def transfer (bus : Bus) : Transferred :=
  let page := bus.peripherals.transferPage
  if page = 0 then
    ⟨bus, none⟩
  else
    let copied :=
      copyToObjectMemory (pageStart page) (List.finRange 0xA0) bus
    match copied.fault with
    | none => ⟨copied.bus.clearTransfer, none⟩
    | some fault => ⟨copied.bus, some fault⟩

end Bus

/-!
## Views for a renderer

The parts of video memory that a renderer reads: tile patterns, the two background
maps, and the table of objects.
-/

/-- A part of memory that a renderer reads. -/
inductive View where
  /-- Tile patterns that are addressed with signed numbers. -/
  | signedTiles
  /-- Tile patterns that are addressed with unsigned numbers. -/
  | unsignedTiles
  | objectTiles
  | backgroundMap0
  | backgroundMap1
  | objects
  deriving Repr, DecidableEq

namespace Bus

/-- A stretch of video RAM. -/
def videoBytes
    (bus : Bus)
    (first afterLast : Nat) :
    Array UInt8 :=
  bus.videoRam.toArray.extract first afterLast

/-- The bytes of a view. -/
def view (bus : Bus) : View → Array UInt8
  | .signedTiles => bus.videoBytes 0x0800 0x1800
  | .unsignedTiles => bus.videoBytes 0x0000 0x1000
  | .objectTiles => bus.videoBytes 0x0000 0x1000
  | .backgroundMap0 => bus.videoBytes 0x1800 0x1C00
  | .backgroundMap1 => bus.videoBytes 0x1C00 0x2000
  | .objects => bus.objectMemory.toArray

end Bus

end Dmg
