namespace Dmg

/-!
# Interrupt sources

Five sources can interrupt the processor.  Each owns one bit, the same in the
register of requests and in the register of enabled sources, and one address at
which its handler starts.  Where several are due, the one with the lowest bit is
served first.
-/

/-- The sources of interrupts, most urgent first. -/
inductive Interrupt where
  | vBlank
  | lcdStat
  | timer
  | serial
  | joypad
  deriving Repr, DecidableEq

namespace Interrupt

/-- All sources in order of priority. -/
def all : List Interrupt :=
  [.vBlank, .lcdStat, .timer, .serial, .joypad]

/-- The bit of a source in the request and enable registers. -/
def bit : Interrupt → UInt8
  | .vBlank => 0x01
  | .lcdStat => 0x02
  | .timer => 0x04
  | .serial => 0x08
  | .joypad => 0x10

/-- The address of a source's handler. -/
def vector : Interrupt → UInt16
  | .vBlank => 0x40
  | .lcdStat => 0x48
  | .timer => 0x50
  | .serial => 0x58
  | .joypad => 0x60

/-- The bits that belong to some source. -/
def allBits : UInt8 :=
  0x1F

/-- Mark a source as requesting service. -/
def request
    (source : Interrupt)
    (requests : UInt8) :
    UInt8 :=
  requests ||| source.bit

/-- Withdraw the request of a source. -/
def acknowledge
    (source : Interrupt)
    (requests : UInt8) :
    UInt8 :=
  requests &&& ~~~source.bit

/-- Whether the source's bit is set. -/
def isIn
    (source : Interrupt)
    (bits : UInt8) :
    Bool :=
  bits &&& source.bit != 0

/-- The sources that are both requested and enabled, one bit each. -/
def due (requests enabled : UInt8) : UInt8 :=
  requests &&& enabled &&& allBits

/-- The most urgent source with its bit set. -/
def mostUrgent? (bits : UInt8) : Option Interrupt :=
  all.find? (·.isIn bits)

end Interrupt

end Dmg
