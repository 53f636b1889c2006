import Dmg.Countdown
import Dmg.Interrupt

namespace Dmg

/-!
# The divider and the programmable timer

The divider counts every 256 cycles and can only be read or cleared.  The counter
runs while bit 2 of the control register is set, at one of four rates that bits 0
and 1 select.  When it overflows it restarts from the modulo register and requests
the timer interrupt.  Writing a register never disturbs the two countdowns.
-/

/-- The registers of the timer and what is left until their next increments. -/
structure Timer where
  divider : UInt8
  counter : UInt8
  modulo : UInt8
  control : UInt8
  dividerCountdown : Countdown
  counterCountdown : Countdown
  deriving Repr, DecidableEq

namespace Timer

/-- The registers of the timer that the processor can address. -/
inductive Register where
  | divider
  | counter
  | modulo
  | control
  deriving Repr, DecidableEq

/-- The register at an address. -/
def Register.ofAddress? (address : UInt16) : Option Register :=
  if address = 0xFF04 then
    some .divider
  else if address = 0xFF05 then
    some .counter
  else if address = 0xFF06 then
    some .modulo
  else if address = 0xFF07 then
    some .control
  else
    none

/-- Cycles between two increments of the divider. -/
def dividerPeriod : Int64 :=
  256

/-- The timer at power-on.  The counter's countdown starts spent. -/
def powerOn : Timer where
  divider := 0
  counter := 0
  modulo := 0
  control := 0
  dividerCountdown := ⟨dividerPeriod⟩
  counterCountdown := ⟨0⟩

/-- Whether the counter is running. -/
def enabled (timer : Timer) : Bool :=
  timer.control &&& 0x04 != 0

/-- Cycles between two increments of the counter. -/
def period (timer : Timer) : Int64 :=
  let selector := timer.control &&& 0x03
  if selector = 0 then
    1024
  else if selector = 1 then
    16
  else if selector = 2 then
    64
  else
    256

/-- The value of a register. -/
def get (timer : Timer) : Register → UInt8
  | .divider => timer.divider
  | .counter => timer.counter
  | .modulo => timer.modulo
  | .control => timer.control

/-- Store into a register.  Any store into the divider clears it. -/
def set
    (timer : Timer)
    (register : Register)
    (value : UInt8) :
    Timer :=
  match register with
  | .divider => { timer with divider := 0 }
  | .counter => { timer with counter := value }
  | .modulo => { timer with modulo := value }
  | .control => { timer with control := value }

/-- Read the register at an address; all bits are set where there is none. -/
def read
    (timer : Timer)
    (address : UInt16) :
    UInt8 :=
  match Register.ofAddress? address with
  | some register => timer.get register
  | none => 0xFF

/-- Write the register at an address; nothing happens where there is none. -/
def write
    (timer : Timer)
    (address : UInt16)
    (value : UInt8) :
    Timer :=
  match Register.ofAddress? address with
  | some register => timer.set register value
  | none => timer

/-- One increment of the counter, with the request that an overflow makes. -/
def tick
    (timer : Timer)
    (requests : UInt8) :
    Timer × UInt8 :=
  if timer.counter = 0xFF then
    ({ timer with counter := timer.modulo },
      Interrupt.timer.request requests)
  else
    ({ timer with counter := timer.counter + 1 }, requests)

/-- Several increments of the counter. -/
def ticks :
    Nat →
    Timer →
    UInt8 →
    Timer × UInt8
  | 0, timer, requests => (timer, requests)
  | count + 1, timer, requests =>
      let ticked := timer.tick requests
      ticks count ticked.1 ticked.2

/-- Let time pass for the divider. -/
def advanceDivider
    (elapsed : UInt64)
    (timer : Timer) :
    Timer :=
  let advanced := timer.dividerCountdown.advance dividerPeriod elapsed
  { timer with
    divider := timer.divider + UInt8.ofNat advanced.2
    dividerCountdown := advanced.1 }

/-- Let time pass for the counter, which stands still unless it is enabled. -/
def advanceCounter
    (elapsed : UInt64)
    (timer : Timer)
    (requests : UInt8) :
    Timer × UInt8 :=
  if timer.enabled then
    let advanced := timer.counterCountdown.advance timer.period elapsed
    ticks advanced.2
      { timer with counterCountdown := advanced.1 }
      requests
  else
    (timer, requests)

/-- Let time pass, adding to the interrupt requests. -/
def advance
    (elapsed : UInt64)
    (timer : Timer)
    (requests : UInt8) :
    Timer × UInt8 :=
  advanceCounter elapsed (timer.advanceDivider elapsed) requests

end Timer

end Dmg
