import Dmg.Machine.Step

namespace Dmg

/-!
# What instructions are built from

An instruction looks at the processor and changes it, reads and stores bytes, and keeps a
record of what it does.  It has no other access to the machine, so whatever holds of these
few primitives, and passes from actions to their sequences, holds of every instruction.
-/

namespace Action

/-- The action is a sequence of primitives. -/
inductive Built : {α : Type} → Action α → Prop where
  | pure
      {α : Type}
      (result : α) :
      Built (pure result)
  | throw
      {α : Type}
      (fault : Fault) :
      Built (throw fault : Action α)
  | bind
      {α β : Type}
      {first : Action β}
      {next : β → Action α}
      (firstBuilt : Built first)
      (nextBuilt : ∀ result, Built (next result)) :
      Built (first >>= next)
  | cpu :
      Built cpu
  | modifyCpu
      (change : Cpu → Cpu) :
      Built (modifyCpu change)
  | record
      (event : Event) :
      Built (record event)
  | access
      (address : UInt16) :
      Built (access address)
  | writeByte
      (address : UInt16)
      (value : UInt8) :
      Built (writeByte address value)

namespace Built

/-- A choice between two actions is built as each of them is. -/
theorem ite
    {α : Type}
    {condition : Prop}
    [Decidable condition]
    {whenTrue whenFalse : Action α}
    (trueBuilt : Built whenTrue)
    (falseBuilt : Built whenFalse) :
    Built (if condition then whenTrue else whenFalse) := by
  split
  · exact trueBuilt
  · exact falseBuilt

/-- A result may follow. -/
theorem thenReturn
    {α β : Type}
    {first : Action β}
    {result : β → α}
    (firstBuilt : Built first) :
    Built (first >>= fun value => Pure.pure (result value)) :=
  .bind firstBuilt fun _ => .pure _

end Built

theorem built_readByte (address : UInt16) : Built (readByte address) :=
  .bind (.record _) fun _ => .access address

theorem built_fetchByte : Built fetchByte := by
  refine .bind .cpu fun _ => ?_
  refine .bind (.record _) fun _ => ?_
  refine .bind (.access _) fun _ => ?_
  exact .thenReturn (.modifyCpu _)

theorem built_fetchWord : Built fetchWord :=
  .bind built_fetchByte fun _ => .thenReturn built_fetchByte

theorem built_pushByte (value : UInt8) : Built (pushByte value) := by
  refine .bind .cpu fun _ => ?_
  refine .bind (.modifyCpu _) fun _ => ?_
  exact .writeByte _ value

theorem built_pushWord (value : UInt16) : Built (pushWord value) :=
  .bind (built_pushByte _) fun _ => built_pushByte _

theorem built_popByte : Built popByte := by
  refine .bind .cpu fun _ => ?_
  refine .bind (built_readByte _) fun _ => ?_
  exact .thenReturn (.modifyCpu _)

theorem built_popWord : Built popWord :=
  .bind built_popByte fun _ => .thenReturn built_popByte

theorem built_readOperand (operand : Operand) :
    Built (readOperand operand) := by
  cases operand with
  | register name => exact .thenReturn .cpu
  | memory => exact .bind .cpu fun _ => built_readByte _

theorem built_writeOperand
    (operand : Operand)
    (value : UInt8) :
    Built (writeOperand operand value) := by
  cases operand with
  | register name => exact .modifyCpu _
  | memory => exact .bind .cpu fun _ => .writeByte _ value

theorem built_followPointer (pointer : Pointer) :
    Built (followPointer pointer) := by
  refine .bind .cpu fun before => ?_
  cases pointer with
  | bc | de => exact .pure _
  | hlIncrement | hlDecrement => exact .thenReturn (.modifyCpu _)

theorem built_operate
    (operation : AluOp)
    (value : UInt8) :
    Built (operate operation value) := by
  refine .bind .cpu fun _ => ?_
  refine .bind (.modifyCpu _) fun _ => ?_
  exact .ite (.modifyCpu _) (.pure ())

theorem built_jumpBy (displacement : UInt8) : Built (jumpBy displacement) :=
  .bind .cpu fun _ => .modifyCpu _

theorem built_callTo (address : UInt16) : Built (callTo address) := by
  refine .bind .cpu fun _ => ?_
  refine .bind (built_pushWord _) fun _ => ?_
  exact .modifyCpu _

theorem built_returnToCaller : Built returnToCaller :=
  .bind built_popWord fun _ => .modifyCpu _

theorem built_rotateAccumulator (rotation : Rotation) :
    Built (rotateAccumulator rotation) := by
  refine .bind .cpu fun _ => ?_
  refine .bind (.modifyCpu _) fun _ => ?_
  exact .modifyCpu _

/-- What follows a test is one of two actions. -/
theorem Built.afterTest
    {α : Type}
    {condition : Condition}
    {whenTrue whenFalse : Action α}
    (trueBuilt : Built whenTrue)
    (falseBuilt : Built whenFalse) :
    Built
      (test condition >>= fun holds =>
        if holds then whenTrue else whenFalse) :=
  .bind (.thenReturn .cpu) fun _ => .ite trueBuilt falseBuilt

end Action

open Dmg.Action

theorem Regular.execute_built (instruction : Regular) :
    Built instruction.execute := by
  cases instruction with
  | loadPairImmediate pair =>
      exact .bind built_fetchWord fun _ => .thenReturn (.modifyCpu _)
  | addHl pair =>
      refine .bind .cpu fun _ => ?_
      refine .bind (.modifyCpu _) fun _ => ?_
      exact .thenReturn (.modifyCpu _)
  | loadIndirect pointer toAccumulator =>
      refine .bind (built_followPointer pointer) fun address => ?_
      refine .ite ?_ ?_
      · exact .bind (built_readByte address) fun _ =>
          .thenReturn (.modifyCpu _)
      · exact .bind .cpu fun _ => .thenReturn (.writeByte address _)
  | incrementPair pair => exact .thenReturn (.modifyCpu _)
  | decrementPair pair => exact .thenReturn (.modifyCpu _)
  | increment operand =>
      refine .bind (built_readOperand operand) fun _ => ?_
      refine .bind .cpu fun _ => ?_
      refine .bind (.modifyCpu _) fun _ => ?_
      exact .thenReturn (built_writeOperand operand _)
  | decrement operand =>
      refine .bind (built_readOperand operand) fun _ => ?_
      refine .bind .cpu fun _ => ?_
      refine .bind (.modifyCpu _) fun _ => ?_
      exact .thenReturn (built_writeOperand operand _)
  | loadImmediate operand =>
      exact .bind built_fetchByte fun _ =>
        .thenReturn (built_writeOperand operand _)
  | load destination source =>
      exact .bind (built_readOperand source) fun _ =>
        .thenReturn (built_writeOperand destination _)
  | alu operation operand =>
      exact .bind (built_readOperand operand) fun _ =>
        .thenReturn (built_operate operation _)
  | aluImmediate operation =>
      exact .bind built_fetchByte fun _ =>
        .thenReturn (built_operate operation _)
  | pop pair =>
      exact .bind built_popWord fun _ => .thenReturn (.modifyCpu _)
  | push pair =>
      exact .bind .cpu fun _ => .thenReturn (built_pushWord _)
  | restart vector =>
      refine .bind .cpu fun _ => ?_
      refine .bind (built_pushWord _) fun _ => ?_
      exact .thenReturn (.modifyCpu _)

theorem Prefixed.execute_built (instruction : Prefixed) :
    Built instruction.execute := by
  cases instruction with
  | rotate rotation operand =>
      refine .bind (built_readOperand operand) fun _ => ?_
      refine .bind .cpu fun _ => ?_
      refine .bind (built_writeOperand operand _) fun _ => ?_
      exact .thenReturn (.modifyCpu _)
  | bit index operand =>
      refine .bind (built_readOperand operand) fun _ => ?_
      refine .bind .cpu fun _ => ?_
      exact .thenReturn (.modifyCpu _)
  | reset index operand =>
      exact .bind (built_readOperand operand) fun _ =>
        .thenReturn (built_writeOperand operand _)
  | set index operand =>
      exact .bind (built_readOperand operand) fun _ =>
        .thenReturn (built_writeOperand operand _)

theorem Irregular.execute_built (instruction : Irregular) :
    Built instruction.execute := by
  cases instruction with
  | nop => exact .pure _
  | rotateAccumulator rotation =>
      exact .thenReturn (built_rotateAccumulator rotation)
  | storeSp =>
      refine .bind built_fetchWord fun _ => ?_
      refine .bind .cpu fun _ => ?_
      refine .bind (.writeByte _ _) fun _ => ?_
      exact .thenReturn (.writeByte _ _)
  | stop =>
      refine .bind built_fetchByte fun _ => ?_
      refine .bind .cpu fun _ => ?_
      refine .bind (.record _) fun _ => ?_
      exact .thenReturn (.modifyCpu _)
  | jumpRelative =>
      exact .bind built_fetchByte fun _ => .thenReturn (built_jumpBy _)
  | jumpRelativeIf condition =>
      exact .bind built_fetchByte fun _ =>
        .afterTest (.thenReturn (built_jumpBy _)) (.pure _)
  | decimalAdjust =>
      refine .bind .cpu fun _ => ?_
      refine .bind (.modifyCpu _) fun _ => ?_
      exact .thenReturn (.modifyCpu _)
  | setCarry | complementCarry =>
      exact .bind .cpu fun _ => .thenReturn (.modifyCpu _)
  | complement | halt | disableInterrupts | enableInterrupts =>
      exact .thenReturn (.modifyCpu _)
  | returnIf condition =>
      exact .afterTest (.thenReturn built_returnToCaller) (.pure _)
  | jumpIf condition =>
      exact .bind built_fetchWord fun _ =>
        .afterTest (.thenReturn (.modifyCpu _)) (.pure _)
  | jump => exact .bind built_fetchWord fun _ => .thenReturn (.modifyCpu _)
  | callIf condition =>
      exact .bind built_fetchWord fun _ =>
        .afterTest (.thenReturn (built_callTo _)) (.pure _)
  | returnAlways => exact .thenReturn built_returnToCaller
  | prefixed =>
      exact .bind built_fetchByte fun opcode =>
        (Prefixed.ofByte opcode).execute_built
  | call => exact .bind built_fetchWord fun _ => .thenReturn (built_callTo _)
  | returnEnable =>
      exact .bind built_returnToCaller fun _ => .thenReturn (.modifyCpu _)
  | storeHigh =>
      refine .bind built_fetchByte fun _ => ?_
      refine .bind .cpu fun _ => ?_
      exact .thenReturn (.writeByte _ _)
  | storeHighC => exact .bind .cpu fun _ => .thenReturn (.writeByte _ _)
  | addSp | loadHlSp =>
      refine .bind built_fetchByte fun _ => ?_
      refine .bind .cpu fun _ => ?_
      refine .bind (.modifyCpu _) fun _ => ?_
      exact .thenReturn (.modifyCpu _)
  | jumpHl | loadSpHl => exact .bind .cpu fun _ => .thenReturn (.modifyCpu _)
  | storeDirect =>
      refine .bind built_fetchWord fun _ => ?_
      refine .bind .cpu fun _ => ?_
      exact .thenReturn (.writeByte _ _)
  | loadHigh =>
      refine .bind built_fetchByte fun _ => ?_
      refine .bind (built_readByte _) fun _ => ?_
      exact .thenReturn (.modifyCpu _)
  | loadHighC =>
      refine .bind .cpu fun _ => ?_
      refine .bind (built_readByte _) fun _ => ?_
      exact .thenReturn (.modifyCpu _)
  | loadDirect =>
      refine .bind built_fetchWord fun _ => ?_
      refine .bind (built_readByte _) fun _ => ?_
      exact .thenReturn (.modifyCpu _)

theorem Instruction.execute_built (instruction : Instruction) :
    Built instruction.execute := by
  cases instruction with
  | regular regular => exact regular.execute_built
  | irregular irregular => exact irregular.execute_built

namespace Action

theorem executeNext_built : Built executeNext := by
  refine .bind .cpu fun _ => .bind built_fetchByte fun opcode => ?_
  refine .bind .cpu fun _ => .bind (.record _) fun _ => ?_
  cases Instruction.ofOpcode? opcode with
  | some instruction => exact instruction.execute_built
  | none => exact .throw _

/-- What a step starts with is a sequence of primitives. -/
theorem executeOrIdle_built : Built executeOrIdle :=
  .bind .cpu fun _ => .ite (.pure _) executeNext_built

end Action

end Dmg
