import Dmg.Text.Numeral

namespace Dmg

/-!
# Faults and notices

A machine tells of itself in two ways.  A fault stops the machine: it has met something
that has no defined behaviour.  A notice is a line of the log and changes nothing.
-/

/--
What a running machine can stop on.  There is no fault for a field of an opcode that names
a register pair: it has two bits, and each of their four codes names one.
-/
inductive Fault where
  /-- The byte fetched at the address is no instruction. -/
  | unimplementedOpcode (opcode : UInt8) (address : UInt16)
  /-- A byte was read from an address in the register page that no register answers. -/
  | unimplementedRegister (address : UInt16)
  deriving Repr, DecidableEq

namespace Fault

/-- The wording of a fault. -/
def message : Fault → String
  | .unimplementedOpcode opcode address =>
      "unimplemented opcode 0x" ++ Hex.ofByte .lower opcode ++
        " at pc 0x" ++ Hex.ofWord .lower address
  | .unimplementedRegister address =>
      "read from unimplemented I/O register 0x" ++ Hex.ofWord .lower address

end Fault

/-!
## Notices

A notice is one line of the log: how much detail it belongs to, and its text.  A
reader who asks for some detail also sees all notices of less detail.
-/

/-- How much detail a notice belongs to, the least first. -/
inductive Detail where
  | error
  | info
  | debug
  | trace
  deriving Repr, DecidableEq

namespace Detail

/-- The position of a detail, the least being zero. -/
def rank : Detail → Nat
  | .error => 0
  | .info => 1
  | .debug => 2
  | .trace => 3

/-- The word that opens a notice of this detail. -/
def label : Detail → String
  | .error => "ERROR"
  | .info => "INFO"
  | .debug => "DEBUG"
  | .trace => "TRACE"

/-- Whether a reader who asks for `asked` sees notices of this detail. -/
def shownAt (detail asked : Detail) : Bool :=
  detail.rank ≤ asked.rank

end Detail

/-- One line of the log. -/
structure Notice where
  detail : Detail
  text : String
  deriving Repr, DecidableEq

namespace Notice

/-- The line as it is written. -/
def line (notice : Notice) : String :=
  notice.detail.label ++ " " ++ notice.text

/-- The notices that a reader of some detail sees, in order. -/
def seenAt
    (asked : Detail)
    (notices : List Notice) :
    List Notice :=
  notices.filter (·.detail.shownAt asked)

@[simp] theorem seenAt_append
    (asked : Detail)
    (earlier later : List Notice) :
    seenAt asked (earlier ++ later) =
      seenAt asked earlier ++ seenAt asked later :=
  List.filter_append earlier later

/-- The written lines that a reader of some detail sees, in order. -/
def linesAt
    (asked : Detail)
    (notices : List Notice) :
    List String :=
  (seenAt asked notices).map line

/-- The notice of a store to an address that no register answers. -/
def ignoredWrite
    (address : UInt16)
    (value : UInt8) :
    Notice where
  detail := .debug
  text :=
    "Ignoring write to unknown register " ++ Hex.ofWord .upper address ++
      " = " ++ Hex.ofByte .upper value

end Notice

end Dmg
