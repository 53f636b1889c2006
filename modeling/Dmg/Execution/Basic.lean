import Dmg.Instruction.Operand
import Dmg.Machine.Basic

namespace Dmg

/-!
# Actions of the processor

An action changes the machine and records what it does.  If it meets a fault it ends
there, and the machine keeps everything that was done before: bytes already fetched
have moved the program counter, and so on.
-/

/-- A machine with the record of an execution, the latest event first. -/
structure Execution extends Machine where
  journal : List Event

namespace Execution

/-- The start of an execution, with nothing recorded. -/
def start (machine : Machine) : Execution where
  toMachine := machine
  journal := []

/-- The recorded events, the earliest first. -/
def events (execution : Execution) : List Event :=
  execution.journal.reverse

/-- The notices of the recorded events, the earliest first. -/
def notices (execution : Execution) : List Notice :=
  execution.events.filterMap Event.notice?

end Execution

/-- A step of work that may end in a fault and keeps the machine either way. -/
abbrev Action := EStateM Fault Execution

namespace Action

/-- The processor as it is now. -/
def cpu : Action Cpu := do
  return (← get).cpu

/-- The bus as it is now. -/
def bus : Action Bus := do
  return (← get).bus

/-- Change the processor. -/
def modifyCpu (change : Cpu → Cpu) : Action Unit :=
  modify fun execution => { execution with cpu := change execution.cpu }

/-- Change the bus. -/
def modifyBus (change : Bus → Bus) : Action Unit :=
  modify fun execution => { execution with bus := change execution.bus }

/-- Record an event. -/
def record (event : Event) : Action Unit :=
  modify fun execution =>
    { execution with journal := event :: execution.journal }

/-- Read an address, or end in the fault that the bus reports. -/
def access (address : UInt16) : Action UInt8 := do
  match (← bus).read address with
  | .ok value => return value
  | .error fault => throw fault

/-- Read a byte of data. -/
def readByte (address : UInt16) : Action UInt8 := do
  record (.read address)
  access address

/-- Write a byte of data. -/
def writeByte
    (address : UInt16)
    (value : UInt8) :
    Action Unit := do
  record (.write address value)
  modifyBus (·.write address value)

/-- Move the program counter. -/
def jumpTo (address : UInt16) : Action Unit :=
  modifyCpu fun cpu => { cpu with pc := address }

/-- Fetch the byte at the program counter and move on. -/
def fetchByte : Action UInt8 := do
  let address := (← cpu).pc
  record (.fetch address)
  let value ← access address
  jumpTo (address + 1)
  return value

/-- Fetch a word, its low byte first. -/
def fetchWord : Action UInt16 := do
  let low ← fetchByte
  let high ← fetchByte
  return Word.ofBytes high low

/-- Move the stack pointer. -/
def moveStack (address : UInt16) : Action Unit :=
  modifyCpu fun cpu => { cpu with sp := address }

/-- Store a byte below the stack pointer and move the pointer to it. -/
def pushByte (value : UInt8) : Action Unit := do
  let address := (← cpu).sp - 1
  moveStack address
  writeByte address value

/-- Take the byte at the stack pointer and move the pointer past it. -/
def popByte : Action UInt8 := do
  let address := (← cpu).sp
  let value ← readByte address
  moveStack (address + 1)
  return value

/-- Push a word, its high byte first. -/
def pushWord (value : UInt16) : Action Unit := do
  pushByte (Word.high value)
  pushByte (Word.low value)

/-- Pop a word, its low byte first. -/
def popWord : Action UInt16 := do
  let low ← popByte
  let high ← popByte
  return Word.ofBytes high low

/-- Count cycles. -/
def spend (cycles : UInt64) : Action Unit :=
  modifyCpu fun cpu => { cpu with cycles := cpu.cycles + cycles }

/-- The value of a byte operand. -/
def readOperand : Operand → Action UInt8
  | .register register => do
      return (← cpu).get register
  | .memory => do
      readByte (← cpu).hl

/-- Store into a byte operand. -/
def writeOperand
    (operand : Operand)
    (value : UInt8) :
    Action Unit :=
  match operand with
  | .register register => modifyCpu (·.set register value)
  | .memory => do
      writeByte (← cpu).hl value

/-- Replace the flags. -/
def setFlags (flags : Flags) : Action Unit :=
  modifyCpu fun cpu => { cpu with flags := flags }

/-- Replace the accumulator. -/
def setAccumulator (value : UInt8) : Action Unit :=
  modifyCpu (·.set .a value)

end Action

end Dmg
