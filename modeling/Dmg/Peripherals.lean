import Dmg.Interrupt
import Dmg.Lcd
import Dmg.Notice
import Dmg.Timer

namespace Dmg

/-!
# The joypad and the register page

Eight buttons share four input lines.  Two select bits, active when clear, choose
whether the directions, the action buttons, both or neither are connected to the
lines.  A line reads as clear when a connected button on it is pressed.
-/

/-- The select bits last written and the buttons that are pressed. -/
structure Joypad where
  /-- Bits 4 and 5 as last written. -/
  select : UInt8
  /-- One bit per button, set while it is pressed; directions in the low half. -/
  pressed : UInt8
  deriving Repr, DecidableEq

namespace Joypad

/-- The select bit that connects the directions when it is clear. -/
def selectDirections : UInt8 :=
  0x10

/-- The select bit that connects the action buttons when it is clear. -/
def selectActions : UInt8 :=
  0x20

/-- Nothing is selected and nothing is pressed at power-on. -/
def powerOn : Joypad where
  select := 0x30
  pressed := 0

/-- Replace the set of pressed buttons. -/
def press
    (joypad : Joypad)
    (pressed : UInt8) :
    Joypad :=
  { joypad with pressed := pressed }

/-- Store the select bits; the other bits of the value are dropped. -/
def write
    (joypad : Joypad)
    (value : UInt8) :
    Joypad :=
  { joypad with select := value &&& 0x30 }

/-- The four lines of the directions, or all set while they are not connected. -/
def directionLines (joypad : Joypad) : UInt8 :=
  if joypad.select &&& selectDirections = 0 then
    ~~~joypad.pressed &&& 0x0F
  else
    0x0F

/-- The four lines of the action buttons, or all set while they are not connected. -/
def actionLines (joypad : Joypad) : UInt8 :=
  if joypad.select &&& selectActions = 0 then
    ~~~(joypad.pressed >>> 4) &&& 0x0F
  else
    0x0F

/-- The register as the processor reads it.  The two highest bits are always set. -/
def read (joypad : Joypad) : UInt8 :=
  0xC0 ||| joypad.select ||| (joypad.directionLines &&& joypad.actionLines)

end Joypad

/-!
## The register page

The timer, the display, the joypad, the serial link and the interrupt requests
answer at addresses from 0xFF00 on.  They share one clock: the cycle count up to
which the countdowns have been advanced.  The serial link only stores what is
written to it, and so does the transfer register, whose value is the page that the
bus copies to object memory next.
-/

/-- The units behind the register page and the cycle count they have reached. -/
structure Peripherals where
  timer : Timer
  lcd : Lcd
  joypad : Joypad
  /-- The interrupt requests. -/
  requests : UInt8
  serialData : UInt8
  serialControl : UInt8
  /-- The page that waits to be copied to object memory; zero for none. -/
  transferPage : UInt8
  /-- The cycle count at the last advance. -/
  clock : UInt64
  deriving Repr, DecidableEq

namespace Peripherals

/-- A register of the page. -/
inductive Register where
  | joypad
  | serialData
  | serialControl
  | timer (register : Timer.Register)
  | requests
  /-- One of the sound registers, which swallow what is written to them. -/
  | sound
  | lcd (register : Lcd.Register)
  | transfer
  /-- The speed switch, which reads as absent. -/
  | speedSwitch
  deriving Repr, DecidableEq

namespace Register

/-- The register at an address. -/
def ofAddress? (address : UInt16) : Option Register :=
  if address = 0xFF00 then
    some .joypad
  else if address = 0xFF01 then
    some .serialData
  else if address = 0xFF02 then
    some .serialControl
  else if address = 0xFF0F then
    some .requests
  else if 0xFF10 ≤ address ∧ address ≤ 0xFF3F then
    some .sound
  else if address = 0xFF46 then
    some .transfer
  else if address = 0xFF4D then
    some .speedSwitch
  else
    match Timer.Register.ofAddress? address with
    | some register => some (.timer register)
    | none => (Lcd.Register.ofAddress? address).map .lcd

end Register

/-- All units at power-on. -/
def powerOn : Peripherals where
  timer := .powerOn
  lcd := .powerOn
  joypad := .powerOn
  requests := 0
  serialData := 0
  serialControl := 0
  transferPage := 0
  clock := 0

/-- The cycles from the last advance up to a cycle count; none if it lies behind. -/
def elapsedUntil
    (peripherals : Peripherals)
    (cycles : UInt64) :
    UInt64 :=
  if peripherals.clock ≤ cycles then
    cycles - peripherals.clock
  else
    0

/-- Advance all countdowns to a cycle count, the display before the timer. -/
def advanceTo
    (cycles : UInt64)
    (peripherals : Peripherals) :
    Peripherals :=
  let elapsed := peripherals.elapsedUntil cycles
  let display := peripherals.lcd.advance elapsed peripherals.requests
  let counter := peripherals.timer.advance elapsed display.2
  { peripherals with
    lcd := display.1
    timer := counter.1
    requests := counter.2
    clock := cycles }

/-- Mark an interrupt source as requesting service. -/
def request
    (source : Interrupt)
    (peripherals : Peripherals) :
    Peripherals :=
  { peripherals with requests := source.request peripherals.requests }

/-- Replace the set of pressed buttons. -/
def press
    (pressed : UInt8)
    (peripherals : Peripherals) :
    Peripherals :=
  { peripherals with joypad := peripherals.joypad.press pressed }

/-- The value of a register; the sound registers cannot be read. -/
def get? (peripherals : Peripherals) : Register → Option UInt8
  | .joypad => some peripherals.joypad.read
  | .serialData => some peripherals.serialData
  | .serialControl => some peripherals.serialControl
  | .timer register => some (peripherals.timer.get register)
  | .requests => some peripherals.requests
  | .sound => none
  | .lcd register => some (peripherals.lcd.get register)
  | .transfer => some peripherals.transferPage
  | .speedSwitch => some 0xFF

/-- Store into a register; sound registers and the speed switch keep nothing. -/
def set
    (peripherals : Peripherals)
    (register : Register)
    (value : UInt8) :
    Peripherals :=
  match register with
  | .joypad =>
      { peripherals with joypad := peripherals.joypad.write value }
  | .serialData => { peripherals with serialData := value }
  | .serialControl => { peripherals with serialControl := value }
  | .timer timerRegister =>
      { peripherals with
        timer := peripherals.timer.set timerRegister value }
  | .requests => { peripherals with requests := value }
  | .sound => peripherals
  | .lcd lcdRegister =>
      { peripherals with
        lcd := peripherals.lcd.set lcdRegister value }
  | .transfer => { peripherals with transferPage := value }
  | .speedSwitch => peripherals

/-- Read an address; a fault where there is no register that can be read. -/
def read
    (peripherals : Peripherals)
    (address : UInt16) :
    Except Fault UInt8 :=
  match (Register.ofAddress? address).bind peripherals.get? with
  | some value => .ok value
  | none => .error (.unimplementedRegister address)

/-- Write an address; nothing happens where there is no register. -/
def write
    (peripherals : Peripherals)
    (address : UInt16)
    (value : UInt8) :
    Peripherals :=
  match Register.ofAddress? address with
  | some register => peripherals.set register value
  | none => peripherals

/-- The notice that a write gives rise to: one where it reaches nothing at all. -/
def noticeOfWrite?
    (address : UInt16)
    (value : UInt8) :
    Option Notice :=
  match Register.ofAddress? address with
  | none => some (.ignoredWrite address value)
  | some .speedSwitch => some (.ignoredWrite address value)
  | some _ => none

end Peripherals

end Dmg
