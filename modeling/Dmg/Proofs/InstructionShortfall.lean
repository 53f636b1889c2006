import Dmg.Proofs.Shortfall

namespace Dmg

/-!
# How every instruction falls short

The instructions are gone through for their faults.  Once an instruction has read what
it needs, nothing that it still does can fail.
-/

open Dmg.Action

namespace Action

variable {start : Execution} {failed : Fault → Execution → Prop}

/-- To operate on the accumulator cannot fail. -/
theorem operate_succeeds
    (operation : AluOp)
    (value : UInt8) :
    Ensures (operate operation value) start Whatever failed := by
  unfold operate
  rw [ensures_bind, ensures_cpu, ensures_bind]
  simp only [setFlags, setAccumulator, ensures_modifyCpu, ensures_ite,
    ensures_pure]
  split
  · exact trivial
  · exact trivial

/-- To store into an operand cannot fail. -/
theorem writeOperand_succeeds
    (operand : Operand)
    (value : UInt8) :
    Ensures (writeOperand operand value) start Whatever failed := by
  cases operand with
  | register name => exact trivial
  | memory => exact trivial

end Action

namespace Regular

/-- A regular instruction succeeds or falls short. -/
theorem execute_shortfall
    (instruction : Regular)
    (start : Execution) :
    Ensures instruction.execute start Whatever
      (Shortfall (.regular instruction) start) := by
  cases instruction with
  | loadPairImmediate pair =>
      refine fetchWord_shortfall.bind ?_
      intro value fetched _
      exact trivial
  | addHl pair => exact trivial
  | loadIndirect pointer toAccumulator =>
      cases toAccumulator with
      | false => cases pointer <;> exact trivial
      | true =>
          unfold execute followPointer
          simp only [ensures_bind, ensures_cpu]
          cases pointer with
          | bc =>
              refine (readByte_shortfall .none (by decide) _).bind ?_
              intro value after _
              exact trivial
          | de =>
              refine (readByte_shortfall .none (by decide) _).bind ?_
              intro value after _
              exact trivial
          | hlIncrement =>
              refine (readBehind_shortfall .increment).bind ?_
              intro value after _
              exact trivial
          | hlDecrement =>
              refine (readBehind_shortfall .decrement).bind ?_
              intro value after _
              exact trivial
  | incrementPair pair => exact trivial
  | decrementPair pair => exact trivial
  | increment operand =>
      refine (readOperand_shortfall .none (by decide) operand).bind ?_
      intro value after _
      cases operand with
      | register name => exact trivial
      | memory => exact trivial
  | decrement operand =>
      refine (readOperand_shortfall .none (by decide) operand).bind ?_
      intro value after _
      cases operand with
      | register name => exact trivial
      | memory => exact trivial
  | loadImmediate operand =>
      refine (fetchByte_shortfall .none (by decide)).bind ?_
      intro value after _
      refine (writeOperand_succeeds operand value).bind ?_
      intro _ final _
      exact trivial
  | load destination source =>
      refine (readOperand_shortfall .none (by decide) source).bind ?_
      intro value after _
      refine (writeOperand_succeeds destination value).bind ?_
      intro _ final _
      exact trivial
  | alu operation operand =>
      refine (readOperand_shortfall .none (by decide) operand).bind ?_
      intro value after _
      refine (operate_succeeds operation value).bind ?_
      intro _ final _
      exact trivial
  | aluImmediate operation =>
      refine (fetchByte_shortfall .none (by decide)).bind ?_
      intro value after _
      refine (operate_succeeds operation value).bind ?_
      intro _ final _
      exact trivial
  | pop pair =>
      have pops :
          Instruction.Pops start.cpu.flags (.regular (.pop pair)) :=
        trivial
      refine (popWord_shortfall pops).bind ?_
      intro value after _
      exact trivial
  | push pair => exact trivial
  | restart vector => exact trivial

end Regular

namespace Prefixed

/-- A prefixed instruction, itself fetched, succeeds or falls short. -/
theorem execute_shortfall
    (instruction : Prefixed)
    {start middle : Execution}
    (fetched : start.Fetched 1 middle) :
    Ensures instruction.execute middle Whatever
      (Shortfall (.irregular .prefixed) start) := by
  cases instruction with
  | rotate rotation operand =>
      refine (readOperand_shortfall fetched (by decide) operand).bind ?_
      intro value after _
      cases operand with
      | register name => exact trivial
      | memory => exact trivial
  | bit index operand =>
      refine (readOperand_shortfall fetched (by decide) operand).bind ?_
      intro value after _
      exact trivial
  | reset index operand =>
      refine (readOperand_shortfall fetched (by decide) operand).bind ?_
      intro value after _
      cases operand with
      | register name => exact trivial
      | memory => exact trivial
  | set index operand =>
      refine (readOperand_shortfall fetched (by decide) operand).bind ?_
      intro value after _
      cases operand with
      | register name => exact trivial
      | memory => exact trivial

end Prefixed

namespace Irregular

/-- A return that the flags allow succeeds or falls short. -/
theorem returnToCaller_shortfall
    {instruction : Instruction}
    {start : Execution}
    (pops : instruction.Pops start.cpu.flags) :
    Ensures returnToCaller start Whatever
      (Shortfall instruction start) := by
  refine (popWord_shortfall pops).bind ?_
  intro address after _
  exact trivial

theorem execute_shortfall
    (instruction : Irregular)
    (start : Execution) :
    Ensures instruction.execute start Whatever
      (Shortfall (.irregular instruction) start) := by
  cases instruction with
  | nop => exact trivial
  | rotateAccumulator rotation => exact trivial
  | storeSp =>
      refine fetchWord_shortfall.bind ?_
      intro address after _
      exact trivial
  | stop =>
      refine (fetchByte_shortfall .none (by decide)).bind ?_
      intro padding after _
      exact trivial
  | jumpRelative =>
      refine (fetchByte_shortfall .none (by decide)).bind ?_
      intro displacement after _
      exact trivial
  | jumpRelativeIf condition =>
      refine (fetchByte_shortfall .none (by decide)).bind ?_
      intro displacement after _
      unfold test
      simp only [ensures_bind, ensures_cpu, ensures_pure, ensures_ite]
      split
      · exact trivial
      · exact trivial
  | decimalAdjust => exact trivial
  | complement => exact trivial
  | setCarry => exact trivial
  | complementCarry => exact trivial
  | halt => exact trivial
  | returnIf condition =>
      unfold execute test
      simp only [ensures_bind, ensures_cpu, ensures_pure, ensures_ite]
      split
      · next holds =>
          have pops :
              Instruction.Pops start.cpu.flags
                (.irregular (.returnIf condition)) :=
            holds
          exact returnToCaller_shortfall pops
      · exact trivial
  | jumpIf condition =>
      refine fetchWord_shortfall.bind ?_
      intro address after _
      unfold test
      simp only [ensures_bind, ensures_cpu, ensures_pure, ensures_ite]
      split
      · exact trivial
      · exact trivial
  | jump =>
      refine fetchWord_shortfall.bind ?_
      intro address after _
      exact trivial
  | callIf condition =>
      refine fetchWord_shortfall.bind ?_
      intro address after _
      unfold test
      simp only [ensures_bind, ensures_cpu, ensures_pure, ensures_ite]
      split
      · exact trivial
      · exact trivial
  | returnAlways =>
      have pops :
          Instruction.Pops start.cpu.flags (.irregular .returnAlways) :=
        trivial
      refine (returnToCaller_shortfall pops).bind ?_
      intro _ after _
      exact trivial
  | prefixed =>
      refine (fetchByte_shortfall .none (by decide)).bind ?_
      intro opcode after fetched
      exact (Prefixed.ofByte opcode).execute_shortfall fetched
  | call =>
      refine fetchWord_shortfall.bind ?_
      intro address after _
      exact trivial
  | returnEnable =>
      have pops :
          Instruction.Pops start.cpu.flags (.irregular .returnEnable) :=
        trivial
      refine (returnToCaller_shortfall pops).bind ?_
      intro _ after _
      exact trivial
  | storeHigh =>
      refine (fetchByte_shortfall .none (by decide)).bind ?_
      intro offset after _
      exact trivial
  | storeHighC => exact trivial
  | addSp =>
      refine (fetchByte_shortfall .none (by decide)).bind ?_
      intro displacement after _
      exact trivial
  | jumpHl => exact trivial
  | storeDirect =>
      refine fetchWord_shortfall.bind ?_
      intro address after _
      exact trivial
  | loadHigh =>
      refine (fetchByte_shortfall .none (by decide)).bind ?_
      intro offset after fetched
      refine (readByte_shortfall fetched (by decide) _).bind ?_
      intro value final _
      exact trivial
  | loadHighC =>
      refine (readByte_shortfall .none (by decide)
        (highPage start.cpu.c)).bind ?_
      intro value final _
      exact trivial
  | disableInterrupts => exact trivial
  | loadHlSp =>
      refine (fetchByte_shortfall .none (by decide)).bind ?_
      intro displacement after _
      exact trivial
  | loadSpHl => exact trivial
  | loadDirect =>
      refine fetchWord_shortfall.bind ?_
      intro address after fetched
      refine (readByte_shortfall fetched (by decide) address).bind ?_
      intro value final _
      exact trivial
  | enableInterrupts => exact trivial

end Irregular

theorem Instruction.execute_shortfall
    (instruction : Instruction)
    (start : Execution) :
    Ensures instruction.execute start Whatever
      (Shortfall instruction start) := by
  cases instruction with
  | regular regular => exact regular.execute_shortfall start
  | irregular irregular => exact irregular.execute_shortfall start

/-- The execution after an opcode has been fetched and its instruction has begun. -/
def Execution.beginning
    (execution : Execution)
    (opcode : UInt8) :
    Execution :=
  execution.fetching.noting
    (.instruction execution.cpu.pc opcode execution.fetching.cpu)

/--
What is left when the next instruction ends in a fault: its opcode could not be read,
or stands for no instruction, or the instruction fell short.
-/
inductive Failure
    (start : Execution) :
    Fault → Execution → Prop where
  | unreadable
      {fault : Fault}
      (missing : start.bus.read start.cpu.pc = .error fault) :
      Failure start fault (start.noting (.fetch start.cpu.pc))
  | illegal
      {opcode : UInt8}
      (found : start.bus.read start.cpu.pc = .ok opcode)
      (undecoded : Instruction.ofOpcode? opcode = none) :
      Failure start (.unimplementedOpcode opcode start.cpu.pc)
        (start.beginning opcode)
  | short
      {opcode : UInt8}
      {instruction : Instruction}
      {fault : Fault}
      {final : Execution}
      (found : start.bus.read start.cpu.pc = .ok opcode)
      (decoded : Instruction.ofOpcode? opcode = some instruction)
      (shortfall :
        Shortfall instruction (start.beginning opcode) fault final) :
      Failure start fault final

/-- The next instruction succeeds or leaves what is said of a failure. -/
theorem Action.executeNext_failure (start : Execution) :
    Ensures executeNext start Whatever (Failure start) := by
  unfold executeNext fetchByte
  simp only [ensures_bind, ensures_cpu, ensures_record, ensures_access,
    Execution.noting_bus]
  cases found : start.bus.read start.cpu.pc with
  | error fault => exact .unreadable found
  | ok opcode =>
      simp only [jumpTo, ensures_modifyCpu, ensures_pure]
      cases decoded : Instruction.ofOpcode? opcode with
      | none => exact .illegal found decoded
      | some instruction =>
          refine (instruction.execute_shortfall
            (start.beginning opcode)).mono ?_ ?_
          · intro cost final _
            exact trivial
          · intro fault final shortfall
            exact .short found decoded shortfall

end Dmg
