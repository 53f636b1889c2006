import Dmg.Proofs.Moves

namespace Dmg

/-!
# Every instruction only moves

The instructions are gone through once.  Each is a sequence of actions that move, and
the result that it returns at its end, if it gets there, is a cost.
-/

open Dmg.Action

namespace Regular

/-- A regular instruction moves, and returns a cost. -/
theorem execute_moving (instruction : Regular) :
    Moving instruction.execute Cost := by
  cases instruction with
  | loadPairImmediate pair =>
      refine moving_fetchWord.andThen fun value => ?_
      refine (moving_setPair pair fun _ => value).andThen fun _ => ?_
      exact .pure (by decide)
  | addHl pair =>
      refine moving_cpu.andThen fun before => ?_
      refine (moving_setFlags _).andThen fun _ => ?_
      refine (moving_setPair .hl fun _ => _).andThen fun _ => ?_
      exact .pure (by decide)
  | loadIndirect pointer toAccumulator =>
      refine (moving_followPointer pointer).andThen fun address => ?_
      refine .ite ?_ ?_
      · refine (moving_readByte address).andThen fun value => ?_
        refine (moving_setAccumulator value).andThen fun _ => ?_
        exact .pure (by decide)
      · refine moving_cpu.andThen fun before => ?_
        refine (moving_writeByte address _).andThen fun _ => ?_
        exact .pure (by decide)
  | incrementPair pair =>
      refine (moving_setPair pair fun cpu => cpu.getPair pair + 1).andThen
        fun _ => ?_
      exact .pure (by decide)
  | decrementPair pair =>
      refine (moving_setPair pair fun cpu => cpu.getPair pair - 1).andThen
        fun _ => ?_
      exact .pure (by decide)
  | increment operand =>
      refine (moving_readOperand operand).andThen fun value => ?_
      refine moving_cpu.andThen fun before => ?_
      refine (moving_setFlags _).andThen fun _ => ?_
      refine (moving_writeOperand operand _).andThen fun _ => ?_
      exact .pure (operand.cost_cost (by decide) (by decide))
  | decrement operand =>
      refine (moving_readOperand operand).andThen fun value => ?_
      refine moving_cpu.andThen fun before => ?_
      refine (moving_setFlags _).andThen fun _ => ?_
      refine (moving_writeOperand operand _).andThen fun _ => ?_
      exact .pure (operand.cost_cost (by decide) (by decide))
  | loadImmediate operand =>
      refine moving_fetchByte.andThen fun value => ?_
      refine (moving_writeOperand operand value).andThen fun _ => ?_
      exact .pure (operand.cost_cost (by decide) (by decide))
  | load destination source =>
      refine (moving_readOperand source).andThen fun value => ?_
      refine (moving_writeOperand destination value).andThen fun _ => ?_
      refine .pure (Cost.max ?_ ?_)
      · exact destination.cost_cost (by decide) (by decide)
      · exact source.cost_cost (by decide) (by decide)
  | alu operation operand =>
      refine (moving_readOperand operand).andThen fun value => ?_
      refine (moving_operate operation value).andThen fun _ => ?_
      exact .pure (operand.cost_cost (by decide) (by decide))
  | aluImmediate operation =>
      refine moving_fetchByte.andThen fun value => ?_
      refine (moving_operate operation value).andThen fun _ => ?_
      exact .pure (by decide)
  | pop pair =>
      refine moving_popWord.andThen fun value => ?_
      refine (moving_setStackPair pair value).andThen fun _ => ?_
      exact .pure (by decide)
  | push pair =>
      refine moving_cpu.andThen fun before => ?_
      refine (moving_pushWord _).andThen fun _ => ?_
      exact .pure (by decide)
  | restart vector =>
      refine moving_cpu.andThen fun before => ?_
      refine (moving_pushWord _).andThen fun _ => ?_
      refine (moving_jumpTo vector).andThen fun _ => ?_
      exact .pure (by decide)

end Regular

namespace Prefixed

theorem execute_moving (instruction : Prefixed) :
    Moving instruction.execute Cost := by
  cases instruction with
  | rotate rotation operand =>
      refine (moving_readOperand operand).andThen fun value => ?_
      refine moving_cpu.andThen fun before => ?_
      refine (moving_writeOperand operand _).andThen fun _ => ?_
      refine (moving_setFlags _).andThen fun _ => ?_
      exact .pure (operand.cost_cost (by decide) (by decide))
  | bit index operand =>
      refine (moving_readOperand operand).andThen fun value => ?_
      refine moving_cpu.andThen fun before => ?_
      refine (moving_setFlags _).andThen fun _ => ?_
      exact .pure (operand.cost_cost (by decide) (by decide))
  | reset index operand =>
      refine (moving_readOperand operand).andThen fun value => ?_
      refine (moving_writeOperand operand _).andThen fun _ => ?_
      exact .pure (operand.cost_cost (by decide) (by decide))
  | set index operand =>
      refine (moving_readOperand operand).andThen fun value => ?_
      refine (moving_writeOperand operand _).andThen fun _ => ?_
      exact .pure (operand.cost_cost (by decide) (by decide))

end Prefixed

namespace Irregular

theorem execute_moving (instruction : Irregular) :
    Moving instruction.execute Cost := by
  cases instruction with
  | nop => exact .pure (by decide)
  | rotateAccumulator rotation =>
      refine (moving_rotateAccumulator rotation).andThen fun _ => ?_
      exact .pure (by decide)
  | storeSp =>
      refine moving_fetchWord.andThen fun address => ?_
      refine moving_cpu.andThen fun before => ?_
      refine (moving_writeByte _ _).andThen fun _ => ?_
      refine (moving_writeByte _ _).andThen fun _ => ?_
      exact .pure (by decide)
  | stop =>
      refine moving_fetchByte.andThen fun _ => ?_
      refine moving_cpu.andThen fun after => ?_
      refine (moving_record (.stop _) trivial).andThen fun _ => ?_
      refine moving_halt.andThen fun _ => ?_
      exact .pure (by decide)
  | jumpRelative =>
      refine moving_fetchByte.andThen fun displacement => ?_
      refine (moving_jumpBy displacement).andThen fun _ => ?_
      exact .pure (by decide)
  | jumpRelativeIf condition =>
      refine moving_fetchByte.andThen fun displacement => ?_
      refine (moving_test condition).andThen fun _ => ?_
      refine .ite ?_ ?_
      · refine (moving_jumpBy displacement).andThen fun _ => ?_
        exact .pure (by decide)
      · exact .pure (by decide)
  | decimalAdjust =>
      refine moving_cpu.andThen fun before => ?_
      refine (moving_setAccumulator _).andThen fun _ => ?_
      refine (moving_setFlags _).andThen fun _ => ?_
      exact .pure (by decide)
  | complement =>
      refine (moving_modifyCpu ?_ ?_).andThen fun _ => ?_
      · intro cpu
        rfl
      · intro cpu
        rfl
      exact .pure (by decide)
  | setCarry =>
      refine moving_cpu.andThen fun before => ?_
      refine (moving_setFlags _).andThen fun _ => ?_
      exact .pure (by decide)
  | complementCarry =>
      refine moving_cpu.andThen fun before => ?_
      refine (moving_setFlags _).andThen fun _ => ?_
      exact .pure (by decide)
  | halt =>
      refine moving_halt.andThen fun _ => ?_
      exact .pure (by decide)
  | returnIf condition =>
      refine (moving_test condition).andThen fun _ => ?_
      refine .ite ?_ ?_
      · refine moving_returnToCaller.andThen fun _ => ?_
        exact .pure (by decide)
      · exact .pure (by decide)
  | jumpIf condition =>
      refine moving_fetchWord.andThen fun address => ?_
      refine (moving_test condition).andThen fun _ => ?_
      refine .ite ?_ ?_
      · refine (moving_jumpTo address).andThen fun _ => ?_
        exact .pure (by decide)
      · exact .pure (by decide)
  | jump =>
      refine moving_fetchWord.andThen fun address => ?_
      refine (moving_jumpTo address).andThen fun _ => ?_
      exact .pure (by decide)
  | callIf condition =>
      refine moving_fetchWord.andThen fun address => ?_
      refine (moving_test condition).andThen fun _ => ?_
      refine .ite ?_ ?_
      · refine (moving_callTo address).andThen fun _ => ?_
        exact .pure (by decide)
      · exact .pure (by decide)
  | returnAlways =>
      refine moving_returnToCaller.andThen fun _ => ?_
      exact .pure (by decide)
  | prefixed =>
      refine moving_fetchByte.andThen fun opcode => ?_
      exact (Prefixed.ofByte opcode).execute_moving
  | call =>
      refine moving_fetchWord.andThen fun address => ?_
      refine (moving_callTo address).andThen fun _ => ?_
      exact .pure (by decide)
  | returnEnable =>
      refine moving_returnToCaller.andThen fun _ => ?_
      refine (moving_requestIme true).andThen fun _ => ?_
      exact .pure (by decide)
  | storeHigh =>
      refine moving_fetchByte.andThen fun offset => ?_
      refine moving_cpu.andThen fun before => ?_
      refine (moving_writeByte _ _).andThen fun _ => ?_
      exact .pure (by decide)
  | storeHighC =>
      refine moving_cpu.andThen fun before => ?_
      refine (moving_writeByte _ _).andThen fun _ => ?_
      exact .pure (by decide)
  | addSp =>
      refine moving_fetchByte.andThen fun displacement => ?_
      refine moving_cpu.andThen fun before => ?_
      refine (moving_setFlags _).andThen fun _ => ?_
      refine (moving_moveStack _).andThen fun _ => ?_
      exact .pure (by decide)
  | jumpHl =>
      refine moving_cpu.andThen fun before => ?_
      refine (moving_jumpTo _).andThen fun _ => ?_
      exact .pure (by decide)
  | storeDirect =>
      refine moving_fetchWord.andThen fun address => ?_
      refine moving_cpu.andThen fun before => ?_
      refine (moving_writeByte _ _).andThen fun _ => ?_
      exact .pure (by decide)
  | loadHigh =>
      refine moving_fetchByte.andThen fun offset => ?_
      refine (moving_readByte _).andThen fun value => ?_
      refine (moving_setAccumulator value).andThen fun _ => ?_
      exact .pure (by decide)
  | loadHighC =>
      refine moving_cpu.andThen fun before => ?_
      refine (moving_readByte _).andThen fun value => ?_
      refine (moving_setAccumulator value).andThen fun _ => ?_
      exact .pure (by decide)
  | disableInterrupts =>
      refine (moving_requestIme false).andThen fun _ => ?_
      exact .pure (by decide)
  | loadHlSp =>
      refine moving_fetchByte.andThen fun displacement => ?_
      refine moving_cpu.andThen fun before => ?_
      refine (moving_setFlags _).andThen fun _ => ?_
      refine (moving_setPair .hl fun _ => _).andThen fun _ => ?_
      exact .pure (by decide)
  | loadSpHl =>
      refine moving_cpu.andThen fun before => ?_
      refine (moving_moveStack _).andThen fun _ => ?_
      exact .pure (by decide)
  | loadDirect =>
      refine moving_fetchWord.andThen fun address => ?_
      refine (moving_readByte address).andThen fun value => ?_
      refine (moving_setAccumulator value).andThen fun _ => ?_
      exact .pure (by decide)
  | enableInterrupts =>
      refine (moving_requestIme true).andThen fun _ => ?_
      exact .pure (by decide)

end Irregular

theorem Instruction.execute_moving (instruction : Instruction) :
    Moving instruction.execute Cost := by
  cases instruction with
  | regular regular => exact regular.execute_moving
  | irregular irregular => exact irregular.execute_moving

/-- To fetch and execute the next instruction is to move, at a cost that is returned. -/
theorem Action.executeNext_moving : Moving executeNext Cost := by
  refine moving_cpu.andThen fun before => ?_
  refine moving_fetchByte.andThen fun opcode => ?_
  refine moving_cpu.andThen fun after => ?_
  refine (moving_record (.instruction _ opcode after) trivial).andThen
    fun _ => ?_
  cases Instruction.ofOpcode? opcode with
  | some instruction => exact instruction.execute_moving
  | none => exact .throw _

end Dmg
