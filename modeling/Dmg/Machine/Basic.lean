import Dmg.Bus.View
import Dmg.Cpu.Basic

namespace Dmg

/-!
# The machine and its events

A processor on a bus.  A machine starts from a cartridge and can be returned to its
start at any time, also after a fault; only the RAM of the cartridge survives that.
-/

/-- The processor and the bus. -/
structure Machine where
  cpu : Cpu
  bus : Bus

namespace Machine

/-- The machine at power-on with a cartridge inserted. -/
def powerOn (cartridge : Cartridge) : Machine where
  cpu := .powerOn
  bus := .powerOn cartridge

/-- Start again with the same cartridge. -/
def reset (machine : Machine) : Machine :=
  powerOn machine.bus.cartridge.resetBanking

/-- Replace the set of pressed buttons. -/
def press
    (pressed : UInt8)
    (machine : Machine) :
    Machine :=
  { machine with
    bus :=
      { machine.bus with
        peripherals := machine.bus.peripherals.press pressed } }

/-- Mark an interrupt source as requesting service. -/
def request
    (source : Interrupt)
    (machine : Machine) :
    Machine :=
  { machine with
    bus :=
      { machine.bus with
        peripherals := machine.bus.peripherals.request source } }

/-- Read an address as an observer. -/
def peek
    (machine : Machine)
    (address : UInt16) :
    Except Fault UInt8 :=
  machine.bus.read address

/-- Write an address as the processor would. -/
def poke
    (address : UInt16)
    (value : UInt8)
    (machine : Machine) :
    Machine :=
  { machine with bus := machine.bus.write address value }

end Machine

/-!
## The events of an execution

While it executes, the processor leaves a record of what it fetched, read and wrote,
of the instructions it began and of the times at which the peripherals caught up with
it.  The log shows part of that record.
-/

/-- Something that happened in an execution. -/
inductive Event where
  /-- An opcode was fetched from the address; the processor is as the fetch left it. -/
  | instruction (address : UInt16) (opcode : UInt8) (cpu : Cpu)
  /-- A byte of an instruction was asked for. -/
  | fetch (address : UInt16)
  /-- A byte of data was asked for. -/
  | read (address : UInt16)
  /-- A byte of data was stored. -/
  | write (address : UInt16) (value : UInt8)
  /-- The processor stopped at an instruction. -/
  | stop (address : UInt16)
  /-- The peripherals caught up with a cycle count. -/
  | catchUp (cycles : UInt64)
  deriving Repr, DecidableEq

namespace Event

/-- The notice of an instruction that begins. -/
def instructionNotice
    (address : UInt16)
    (opcode : UInt8)
    (cpu : Cpu) :
    Notice where
  detail := .trace
  text :=
    Hex.ofWord .upper address ++ ": " ++ Hex.ofByte .upper opcode ++
      "  " ++ cpu.snapshot

/-- The notice of a processor that stops. -/
def stopNotice (address : UInt16) : Notice where
  detail := .debug
  text := "STOP at " ++ Hex.ofWord .upper address

/-- The notice that the log shows for an event. -/
def notice? : Event → Option Notice
  | .instruction address opcode cpu =>
      some (instructionNotice address opcode cpu)
  | .fetch _ => none
  | .read _ => none
  | .write address value => Bus.noticeOfWrite? address value
  | .stop address => some (stopNotice address)
  | .catchUp _ => none

end Event

end Dmg
