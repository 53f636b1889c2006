import Dmg.Proofs.Action

namespace Dmg

/-!
# How an instruction falls short

Reading is the only thing that can fail, and every instruction does all its reading
before it changes anything, with two exceptions: what is taken from the stack moves the
stack pointer byte by byte, and the accumulator's loads that step through memory move
HL before they read.  So there are four ways in which an instruction can fall short, and
each says exactly what is left of the machine.
-/

namespace Execution

/-- The execution after the byte at the program counter has been fetched. -/
def fetching (execution : Execution) : Execution :=
  (execution.noting (.fetch execution.cpu.pc)).withCpu
    { execution.cpu with pc := execution.cpu.pc + 1 }

/-- The execution after the byte on top of the stack has been taken. -/
def popping (execution : Execution) : Execution :=
  (execution.noting (.read execution.cpu.sp)).withCpu
    { execution.cpu with sp := execution.cpu.sp + 1 }

/-- So many bytes have been fetched, one after the other, and nothing else has been done. -/
inductive Fetched (start : Execution) : Nat → Execution → Prop where
  | none :
      Fetched start 0 start
  | next
      {count : Nat}
      {middle : Execution}
      {value : UInt8}
      (before : Fetched start count middle)
      (found : middle.bus.read middle.cpu.pc = .ok value) :
      Fetched start (count + 1) middle.fetching

end Execution

/-- The instruction takes a word from the stack if the flags are such. -/
def Instruction.Pops (flags : Flags) : Instruction → Prop
  | .irregular .returnAlways => True
  | .irregular .returnEnable => True
  | .irregular (.returnIf condition) => condition.holds flags = true
  | .regular (.pop _) => True
  | _ => False

/-- The instruction loads the accumulator from HL and moves HL as said. -/
inductive Instruction.Steps : Instruction → (UInt16 → UInt16) → Prop where
  | increment :
      Steps (.regular (.loadIndirect .hlIncrement true)) (· + 1)
  | decrement :
      Steps (.regular (.loadIndirect .hlDecrement true)) (· - 1)

/--
What is left when an instruction that starts so, with its opcode fetched, ends in a
fault: it could not fetch a byte of its own, or read its data, in the latter case
perhaps with HL moved on already, or take the second byte of a word from the stack.
-/
inductive Shortfall
    (instruction : Instruction)
    (start : Execution)
    (fault : Fault) :
    Execution → Prop where
  | fetch
      {count : Nat}
      {middle : Execution}
      (fetched : start.Fetched count middle)
      (few : count ≤ 1)
      (missing : middle.bus.read middle.cpu.pc = .error fault) :
      Shortfall instruction start fault
        (middle.noting (.fetch middle.cpu.pc))
  | data
      {count : Nat}
      {middle : Execution}
      {address : UInt16}
      (fetched : start.Fetched count middle)
      (few : count ≤ 2)
      (missing : middle.bus.read address = .error fault) :
      Shortfall instruction start fault (middle.noting (.read address))
  | pointer
      {move : UInt16 → UInt16}
      (steps : instruction.Steps move)
      (missing : start.bus.read start.cpu.hl = .error fault) :
      Shortfall instruction start fault
        ((start.withCpu (start.cpu.setHl (move start.cpu.hl))).noting
          (.read start.cpu.hl))
  | stack
      {low : UInt8}
      (pops : instruction.Pops start.cpu.flags)
      (found : start.bus.read start.cpu.sp = .ok low)
      (missing : start.bus.read (start.cpu.sp + 1) = .error fault) :
      Shortfall instruction start fault
        (start.popping.noting (.read (start.cpu.sp + 1)))

namespace Action

/-- Nothing is said of a success. -/
abbrev Whatever (_ : α) (_ : Execution) : Prop :=
  True

section Reads

variable
  {instruction : Instruction}
  {start middle : Execution}
  {count : Nat}

/-- To fetch a byte of the instruction is to have fetched one more, or to fall short. -/
theorem fetchByte_shortfall
    (fetched : start.Fetched count middle)
    (few : count ≤ 1) :
    Ensures fetchByte middle
      (fun _ final => start.Fetched (count + 1) final)
      (Shortfall instruction start) := by
  unfold fetchByte
  rw [ensures_bind, ensures_cpu, ensures_bind, ensures_record,
    ensures_bind, ensures_access, Execution.noting_bus]
  cases found : middle.bus.read middle.cpu.pc with
  | ok value => exact .next fetched found
  | error fault => exact .fetch fetched few found

/-- To fetch a word of the instruction is to have fetched two bytes, or to fall short. -/
theorem fetchWord_shortfall :
    Ensures fetchWord start
      (fun _ final => start.Fetched 2 final)
      (Shortfall instruction start) := by
  refine (fetchByte_shortfall .none (by decide)).bind ?_
  intro low afterLow fetchedLow
  refine (fetchByte_shortfall fetchedLow (by decide)).bind ?_
  intro high afterHigh fetchedHigh
  exact fetchedHigh

/-- To read data is to succeed or to fall short. -/
theorem readByte_shortfall
    (fetched : start.Fetched count middle)
    (few : count ≤ 2)
    (address : UInt16) :
    Ensures (readByte address) middle Whatever
      (Shortfall instruction start) := by
  unfold readByte
  rw [ensures_bind, ensures_record, ensures_access, Execution.noting_bus]
  cases found : middle.bus.read address with
  | ok value => exact trivial
  | error fault => exact .data fetched few found

theorem readOperand_shortfall
    (fetched : start.Fetched count middle)
    (few : count ≤ 2)
    (operand : Operand) :
    Ensures (readOperand operand) middle Whatever
      (Shortfall instruction start) := by
  cases operand with
  | register name => exact trivial
  | memory => exact readByte_shortfall fetched few middle.cpu.hl

/-- To read where HL pointed before it was moved is to succeed or to fall short. -/
theorem readBehind_shortfall
    {move : UInt16 → UInt16}
    (steps : instruction.Steps move) :
    Ensures (readByte start.cpu.hl)
      (start.withCpu (start.cpu.setHl (move start.cpu.hl)))
      Whatever (Shortfall instruction start) := by
  unfold readByte
  rw [ensures_bind, ensures_record, ensures_access,
    Execution.noting_bus, Execution.withCpu_bus]
  cases found : start.bus.read start.cpu.hl with
  | ok value => exact trivial
  | error fault => exact .pointer steps found

/-- To take a word from the stack is to succeed or to fall short. -/
theorem popWord_shortfall (pops : instruction.Pops start.cpu.flags) :
    Ensures popWord start Whatever (Shortfall instruction start) := by
  unfold popWord popByte readByte moveStack
  simp only [ensures_bind, ensures_cpu, ensures_record, ensures_access,
    ensures_modifyCpu, ensures_pure, Execution.noting_bus,
    Execution.noting_cpu, Execution.withCpu_bus, Execution.withCpu_cpu]
  cases foundLow : start.bus.read start.cpu.sp with
  | ok low =>
      cases foundHigh : start.bus.read (start.cpu.sp + 1) with
      | ok high => exact trivial
      | error fault => exact .stack pops foundLow foundHigh
  | error fault => exact .data .none (by decide) foundLow

end Reads

end Action

end Dmg
