import Dmg.Proofs.Consulting

namespace Dmg

/-!
# What every instruction reads

The addresses that an instruction reads are a function of the registers and of the bytes
that it finds: its own further bytes, the data that it points to, the word on top of
the stack.  The instructions are gone through once for that, and for what they make of
a requested change of the master enable: three of them put a request of their own in
its place, and all others leave it as it is.
-/

open Dmg.Action

/-- The addresses that an operand is read from. -/
def Operand.readAddresses (cpu : Cpu) : Operand → List UInt16
  | .register _ => []
  | .memory => [cpu.hl]

/-- The address that a pointer holds. -/
def Pointer.address (cpu : Cpu) : Pointer → UInt16
  | .bc => cpu.bc
  | .de => cpu.de
  | .hlIncrement | .hlDecrement => cpu.hl

/-- The addresses of the word on top of the stack, its low byte first. -/
def Cpu.stackAddresses (cpu : Cpu) : List UInt16 :=
  [cpu.sp, cpu.sp + 1]

/-- The addresses of the word that follows the opcode, its low byte first. -/
def Cpu.wordAddresses (cpu : Cpu) : List UInt16 :=
  [cpu.pc, cpu.pc + 1]

/--
The addresses that a regular instruction reads after its opcode; the program counter
stands behind the opcode.
-/
def Regular.readAddresses (cpu : Cpu) : Regular → List UInt16
  | .loadPairImmediate _ => cpu.wordAddresses
  | .addHl _ => []
  | .loadIndirect pointer toAccumulator =>
      if toAccumulator then [pointer.address cpu] else []
  | .incrementPair _ => []
  | .decrementPair _ => []
  | .increment operand => operand.readAddresses cpu
  | .decrement operand => operand.readAddresses cpu
  | .loadImmediate _ => [cpu.pc]
  | .load _ source => source.readAddresses cpu
  | .alu _ operand => operand.readAddresses cpu
  | .aluImmediate _ => [cpu.pc]
  | .pop _ => cpu.stackAddresses
  | .push _ => []
  | .restart _ => []

/-- The addresses that an irregular instruction reads after its opcode. -/
def Irregular.readAddresses
    (cpu : Cpu)
    (bus : Bus) :
    Irregular → List UInt16
  | .storeSp | .jumpIf _ | .jump | .callIf _ | .call | .storeDirect =>
      cpu.wordAddresses
  | .stop | .jumpRelative | .jumpRelativeIf _ | .storeHigh | .addSp
  | .loadHlSp =>
      [cpu.pc]
  | .returnIf condition =>
      if condition.holds cpu.flags then cpu.stackAddresses else []
  | .returnAlways | .returnEnable => cpu.stackAddresses
  | .prefixed =>
      cpu.pc ::
        (Prefixed.ofByte (bus.byteAt cpu.pc)).operand.readAddresses cpu
  | .loadHigh => [cpu.pc, highPage (bus.byteAt cpu.pc)]
  | .loadHighC => [highPage cpu.c]
  | .loadDirect =>
      cpu.wordAddresses ++
        [Word.ofBytes (bus.byteAt (cpu.pc + 1)) (bus.byteAt cpu.pc)]
  | .nop | .rotateAccumulator _ | .decimalAdjust | .complement | .setCarry
  | .complementCarry | .halt | .storeHighC | .jumpHl | .disableInterrupts
  | .loadSpHl | .enableInterrupts =>
      []

/-- The addresses that an instruction reads after its opcode. -/
def Instruction.readAddresses
    (cpu : Cpu)
    (bus : Bus) :
    Instruction → List UInt16
  | .irregular instruction => instruction.readAddresses cpu bus
  | .regular instruction => instruction.readAddresses cpu

/-- The change of the master enable that an instruction requests. -/
def Instruction.imeRequest? : Instruction → Option Bool
  | .irregular .enableInterrupts => some true
  | .irregular .returnEnable => some true
  | .irregular .disableInterrupts => some false
  | _ => none

/-- What an instruction leaves pending of what was pending before. -/
def Instruction.pendingAfter
    (pending : Option PendingIme)
    (instruction : Instruction) :
    Option PendingIme :=
  match instruction.imeRequest? with
  | some enable => some ⟨enable, 1⟩
  | none => pending

namespace Action

variable {start : Execution}

/-- The processor keeps what is pending; the result tells nothing. -/
abbrev KeepsPending (start : Execution) (_ : α) (final : Execution) : Prop :=
  final.cpu.pendingIme = start.cpu.pendingIme

/-- An operand is read from its addresses. -/
theorem consults_readOperand (operand : Operand) :
    Consults (readOperand operand) start (operand.readAddresses start.cpu)
      (KeepsPending start) := by
  cases operand with
  | register name => exact .unread ⟨rfl, rfl⟩
  | memory =>
      refine (consults_readByte start.cpu.hl).mono ?_
      rintro _ _ ⟨-, rfl⟩
      rfl

/-- To return reads the word on top of the stack. -/
theorem consults_returnToCaller :
    Consults returnToCaller start start.cpu.stackAddresses
      (KeepsPending start) := by
  refine consults_popWord.thenUnread ?_
  rintro address _ ⟨-, rfl⟩
  exact ⟨rfl, rfl⟩

/-- What follows a test is one of two actions, as the flags decide. -/
theorem ensures_test
    {returned : α → Execution → Prop}
    {failed : Fault → Execution → Prop}
    (condition : Condition)
    (whenTrue whenFalse : Action α) :
    Ensures
        (test condition >>= fun holds =>
          if holds then whenTrue else whenFalse)
        start returned failed ↔
      if condition.holds start.cpu.flags then
        Ensures whenTrue start returned failed
      else
        Ensures whenFalse start returned failed := by
  unfold test
  rw [ensures_bind, ensures_bind, ensures_cpu, ensures_pure, ensures_ite]

/-- The flags decide also which of two lists of addresses is read. -/
theorem Consults.afterTest
    {whenTrue whenFalse : Action α}
    {trueAddresses falseAddresses : List UInt16}
    {returned : α → Execution → Prop}
    (condition : Condition)
    (trueConsults : Consults whenTrue start trueAddresses returned)
    (falseConsults : Consults whenFalse start falseAddresses returned) :
    Consults
      (test condition >>= fun holds =>
        if holds then whenTrue else whenFalse)
      start
      (if condition.holds start.cpu.flags then
        trueAddresses
      else
        falseAddresses)
      returned := by
  unfold Consults at *
  rw [ensures_test]
  split
  · exact trueConsults
  · exact falseConsults

/-- To follow a pointer finds its address without reading. -/
theorem consults_followPointer (pointer : Pointer) :
    Consults (followPointer pointer) start []
      (fun address final =>
        address = pointer.address start.cpu ∧
          final.cpu.pendingIme = start.cpu.pendingIme) := by
  cases pointer <;> exact .unread ⟨rfl, rfl, rfl⟩

end Action

namespace Regular

/-- A regular instruction reads its addresses and keeps what is pending. -/
theorem execute_consults
    (instruction : Regular)
    (start : Execution) :
    Consults instruction.execute start
      (instruction.readAddresses start.cpu) (KeepsPending start) := by
  cases instruction with
  | loadPairImmediate pair =>
      refine consults_fetchWord.thenUnread ?_
      rintro value _ ⟨-, rfl⟩
      cases pair <;> exact ⟨rfl, rfl⟩
  | addHl pair => exact .unread ⟨rfl, rfl⟩
  | loadIndirect pointer toAccumulator =>
      cases toAccumulator with
      | false => cases pointer <;> exact .unread ⟨rfl, rfl⟩
      | true =>
          refine (consults_followPointer pointer).bind ?_
          rintro address after ⟨rfl, pending⟩
          refine (consults_readByte _).thenUnread ?_
          rintro value _ ⟨-, rfl⟩
          exact ⟨rfl, pending⟩
  | incrementPair pair => cases pair <;> exact .unread ⟨rfl, rfl⟩
  | decrementPair pair => cases pair <;> exact .unread ⟨rfl, rfl⟩
  | increment operand =>
      refine (consults_readOperand operand).thenUnread ?_
      intro value after pending
      cases operand with
      | register name => cases name <;> exact ⟨rfl, pending⟩
      | memory => exact ⟨rfl, pending⟩
  | decrement operand =>
      refine (consults_readOperand operand).thenUnread ?_
      intro value after pending
      cases operand with
      | register name => cases name <;> exact ⟨rfl, pending⟩
      | memory => exact ⟨rfl, pending⟩
  | loadImmediate operand =>
      refine consults_fetchByte.thenUnread ?_
      rintro value _ ⟨-, rfl⟩
      cases operand with
      | register name => cases name <;> exact ⟨rfl, rfl⟩
      | memory => exact ⟨rfl, rfl⟩
  | load destination source =>
      refine (consults_readOperand source).thenUnread ?_
      intro value after pending
      cases destination with
      | register name => cases name <;> exact ⟨rfl, pending⟩
      | memory => exact ⟨rfl, pending⟩
  | alu operation operand =>
      refine (consults_readOperand operand).thenUnread ?_
      intro value after pending
      cases operation <;> exact ⟨rfl, pending⟩
  | aluImmediate operation =>
      refine consults_fetchByte.thenUnread ?_
      rintro value _ ⟨-, rfl⟩
      cases operation <;> exact ⟨rfl, rfl⟩
  | pop pair =>
      refine consults_popWord.thenUnread ?_
      rintro value _ ⟨-, rfl⟩
      cases pair <;> exact ⟨rfl, rfl⟩
  | push pair => exact .unread ⟨rfl, rfl⟩
  | restart vector => exact .unread ⟨rfl, rfl⟩

end Regular

namespace Prefixed

/-- A prefixed instruction reads its operand and keeps what is pending. -/
theorem execute_consults
    (instruction : Prefixed)
    (start : Execution) :
    Consults instruction.execute start
      (instruction.operand.readAddresses start.cpu) (KeepsPending start) := by
  cases instruction with
  | rotate rotation operand =>
      refine (consults_readOperand operand).thenUnread ?_
      intro value after pending
      cases operand with
      | register name => cases name <;> exact ⟨rfl, pending⟩
      | memory => exact ⟨rfl, pending⟩
  | bit index operand =>
      refine (consults_readOperand operand).thenUnread ?_
      intro value after pending
      exact ⟨rfl, pending⟩
  | reset index operand =>
      refine (consults_readOperand operand).thenUnread ?_
      intro value after pending
      cases operand with
      | register name => cases name <;> exact ⟨rfl, pending⟩
      | memory => exact ⟨rfl, pending⟩
  | set index operand =>
      refine (consults_readOperand operand).thenUnread ?_
      intro value after pending
      cases operand with
      | register name => cases name <;> exact ⟨rfl, pending⟩
      | memory => exact ⟨rfl, pending⟩

end Prefixed

namespace Irregular

/-- An irregular instruction reads its addresses and leaves pending what it should. -/
theorem execute_consults
    (instruction : Irregular)
    (start : Execution) :
    Consults instruction.execute start
      (instruction.readAddresses start.cpu start.bus)
      (fun _ final =>
        final.cpu.pendingIme =
          Instruction.pendingAfter start.cpu.pendingIme
            (.irregular instruction)) := by
  cases instruction with
  | storeSp =>
      refine consults_fetchWord.thenUnread ?_
      rintro address _ ⟨-, rfl⟩
      exact ⟨rfl, rfl⟩
  | stop =>
      refine consults_fetchByte.thenUnread ?_
      rintro padding _ ⟨-, rfl⟩
      exact ⟨rfl, rfl⟩
  | jumpRelative =>
      refine consults_fetchByte.thenUnread ?_
      rintro displacement _ ⟨-, rfl⟩
      exact ⟨rfl, rfl⟩
  | jumpRelativeIf condition =>
      refine consults_fetchByte.thenUnread ?_
      rintro displacement _ ⟨-, rfl⟩
      rw [ensures_test]
      split <;> exact ⟨rfl, rfl⟩
  | returnIf condition =>
      refine .afterTest condition ?_ ?_
      · refine consults_returnToCaller.thenUnread ?_
        intro _ after pending
        exact ⟨rfl, pending⟩
      · exact .unread ⟨rfl, rfl⟩
  | jumpIf condition =>
      refine consults_fetchWord.thenUnread ?_
      rintro address _ ⟨-, rfl⟩
      rw [ensures_test]
      split <;> exact ⟨rfl, rfl⟩
  | jump =>
      refine consults_fetchWord.thenUnread ?_
      rintro address _ ⟨-, rfl⟩
      exact ⟨rfl, rfl⟩
  | callIf condition =>
      refine consults_fetchWord.thenUnread ?_
      rintro address _ ⟨-, rfl⟩
      rw [ensures_test]
      split <;> exact ⟨rfl, rfl⟩
  | returnAlways =>
      refine consults_returnToCaller.thenUnread ?_
      intro _ after pending
      exact ⟨rfl, pending⟩
  | prefixed =>
      refine consults_fetchByte.bind ?_
      rintro byte _ ⟨rfl, rfl⟩
      exact (Prefixed.ofByte _).execute_consults start.fetching
  | call =>
      refine consults_fetchWord.thenUnread ?_
      rintro address _ ⟨-, rfl⟩
      exact ⟨rfl, rfl⟩
  | returnEnable =>
      refine consults_returnToCaller.thenUnread ?_
      intro _ after pending
      exact ⟨rfl, rfl⟩
  | storeHigh =>
      refine consults_fetchByte.thenUnread ?_
      rintro offset _ ⟨-, rfl⟩
      exact ⟨rfl, rfl⟩
  | addSp =>
      refine consults_fetchByte.thenUnread ?_
      rintro displacement _ ⟨-, rfl⟩
      exact ⟨rfl, rfl⟩
  | storeDirect =>
      refine consults_fetchWord.thenUnread ?_
      rintro address _ ⟨-, rfl⟩
      exact ⟨rfl, rfl⟩
  | loadHigh =>
      refine consults_fetchByte.bind ?_
      rintro offset _ ⟨rfl, rfl⟩
      refine (consults_readByte _).thenUnread ?_
      rintro value _ ⟨-, rfl⟩
      exact ⟨rfl, rfl⟩
  | loadHighC =>
      refine (consults_readByte _).thenUnread ?_
      rintro value _ ⟨-, rfl⟩
      exact ⟨rfl, rfl⟩
  | loadHlSp =>
      refine consults_fetchByte.thenUnread ?_
      rintro displacement _ ⟨-, rfl⟩
      exact ⟨rfl, rfl⟩
  | loadDirect =>
      refine consults_fetchWord.bind ?_
      rintro address _ ⟨rfl, rfl⟩
      refine (consults_readByte _).thenUnread ?_
      rintro value _ ⟨-, rfl⟩
      exact ⟨rfl, rfl⟩
  -- The others read nothing after their opcode.
  | _ => exact .unread ⟨rfl, rfl⟩

end Irregular

/-- An instruction reads its addresses and leaves pending what it should. -/
theorem Instruction.execute_consults
    (instruction : Instruction)
    (start : Execution) :
    Consults instruction.execute start
      (instruction.readAddresses start.cpu start.bus)
      (fun _ final =>
        final.cpu.pendingIme =
          instruction.pendingAfter start.cpu.pendingIme) := by
  cases instruction with
  | regular regular => exact regular.execute_consults start
  | irregular irregular => exact irregular.execute_consults start

end Dmg
