import Dmg.Countdown
import Dmg.Interrupt

namespace Dmg

/-!
# The scanline counter and the display registers

A frame has 154 lines of 456 cycles.  The line counter moves to the next line
when a line is over, requests the vertical-blank interrupt on entering line 144,
and after each move records in bit 2 of the status register whether it equals the
compare register.  All other registers are stored and read back.
-/

/-- The display registers and what is left of the current line. -/
structure Lcd where
  control : UInt8
  status : UInt8
  scrollY : UInt8
  scrollX : UInt8
  line : UInt8
  lineCompare : UInt8
  backgroundPalette : UInt8
  objectPalette0 : UInt8
  objectPalette1 : UInt8
  windowY : UInt8
  windowX : UInt8
  lineCountdown : Countdown
  deriving Repr, DecidableEq

namespace Lcd

/-- The display registers that the processor can address. -/
inductive Register where
  | control
  | status
  | scrollY
  | scrollX
  | line
  | lineCompare
  | backgroundPalette
  | objectPalette0
  | objectPalette1
  | windowY
  | windowX
  deriving Repr, DecidableEq

/-- The register at an address.  The address 0xFF46 belongs to no display register. -/
def Register.ofAddress? (address : UInt16) : Option Register :=
  if address = 0xFF40 then
    some .control
  else if address = 0xFF41 then
    some .status
  else if address = 0xFF42 then
    some .scrollY
  else if address = 0xFF43 then
    some .scrollX
  else if address = 0xFF44 then
    some .line
  else if address = 0xFF45 then
    some .lineCompare
  else if address = 0xFF47 then
    some .backgroundPalette
  else if address = 0xFF48 then
    some .objectPalette0
  else if address = 0xFF49 then
    some .objectPalette1
  else if address = 0xFF4A then
    some .windowY
  else if address = 0xFF4B then
    some .windowX
  else
    none

/-- Cycles in one line. -/
def cyclesPerLine : Int64 :=
  456

/-- Lines in one frame. -/
def linesPerFrame : UInt8 :=
  154

/-- The line on which the vertical blank begins. -/
def vBlankLine : UInt8 :=
  144

/-- The bit of the status register that records a line coincidence. -/
def coincidenceBit : UInt8 :=
  0x04

/-- The display at power-on. -/
def powerOn : Lcd where
  control := 0x91
  status := 0
  scrollY := 0
  scrollX := 0
  line := 0
  lineCompare := 0
  backgroundPalette := 0xFC
  objectPalette0 := 0xFF
  objectPalette1 := 0xFF
  windowY := 0
  windowX := 0
  lineCountdown := ⟨cyclesPerLine⟩

/-- Whether the current line lies in the vertical blank. -/
def inVBlank (lcd : Lcd) : Bool :=
  vBlankLine ≤ lcd.line

/-- Whether the last move of the line counter met the compare register. -/
def coincidence (lcd : Lcd) : Bool :=
  lcd.status &&& coincidenceBit != 0

/-- The value of a register. -/
def get (lcd : Lcd) : Register → UInt8
  | .control => lcd.control
  | .status => lcd.status
  | .scrollY => lcd.scrollY
  | .scrollX => lcd.scrollX
  | .line => lcd.line
  | .lineCompare => lcd.lineCompare
  | .backgroundPalette => lcd.backgroundPalette
  | .objectPalette0 => lcd.objectPalette0
  | .objectPalette1 => lcd.objectPalette1
  | .windowY => lcd.windowY
  | .windowX => lcd.windowX

/-- Store into a register.  Any store into the line counter restarts the frame. -/
def set
    (lcd : Lcd)
    (register : Register)
    (value : UInt8) :
    Lcd :=
  match register with
  | .control => { lcd with control := value }
  | .status => { lcd with status := value }
  | .scrollY => { lcd with scrollY := value }
  | .scrollX => { lcd with scrollX := value }
  | .line => { lcd with line := 0 }
  | .lineCompare => { lcd with lineCompare := value }
  | .backgroundPalette => { lcd with backgroundPalette := value }
  | .objectPalette0 => { lcd with objectPalette0 := value }
  | .objectPalette1 => { lcd with objectPalette1 := value }
  | .windowY => { lcd with windowY := value }
  | .windowX => { lcd with windowX := value }

/-- Read the register at an address; all bits are set where there is none. -/
def read
    (lcd : Lcd)
    (address : UInt16) :
    UInt8 :=
  match Register.ofAddress? address with
  | some register => lcd.get register
  | none => 0xFF

/-- Write the register at an address; nothing happens where there is none. -/
def write
    (lcd : Lcd)
    (address : UInt16)
    (value : UInt8) :
    Lcd :=
  match Register.ofAddress? address with
  | some register => lcd.set register value
  | none => lcd

/-- The line after the current one; the last line is followed by line 0. -/
def lineAfter (line : UInt8) : UInt8 :=
  if line + 1 = linesPerFrame then
    0
  else
    line + 1

/-- Record in the status register whether the line counter meets the compare register. -/
def compareLine (lcd : Lcd) : Lcd :=
  if lcd.line = lcd.lineCompare then
    { lcd with status := lcd.status ||| coincidenceBit }
  else
    { lcd with status := lcd.status &&& ~~~coincidenceBit }

/-- Move to the next line, with the request that entering the vertical blank makes. -/
def nextLine
    (lcd : Lcd)
    (requests : UInt8) :
    Lcd × UInt8 :=
  let moved := { lcd with line := lineAfter lcd.line }
  (moved.compareLine,
    if moved.line = vBlankLine then
      Interrupt.vBlank.request requests
    else
      requests)

/-- Move over several lines. -/
def nextLines :
    Nat →
    Lcd →
    UInt8 →
    Lcd × UInt8
  | 0, lcd, requests => (lcd, requests)
  | count + 1, lcd, requests =>
      let moved := lcd.nextLine requests
      nextLines count moved.1 moved.2

/-- Let time pass, adding to the interrupt requests. -/
def advance
    (elapsed : UInt64)
    (lcd : Lcd)
    (requests : UInt8) :
    Lcd × UInt8 :=
  let advanced := lcd.lineCountdown.advance cyclesPerLine elapsed
  nextLines advanced.2
    { lcd with lineCountdown := advanced.1 }
    requests

end Lcd

end Dmg
