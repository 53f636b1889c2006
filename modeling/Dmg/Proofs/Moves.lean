import Dmg.Proofs.Action
import Mathlib.Logic.Relation

namespace Dmg

/-!
# What an instruction can do

However an instruction goes, and whether or not it ends in a fault, the machine only
goes through moves of three kinds: registers change, an event is noted, a byte is
stored.  No move counts cycles, touches the interrupt master enable or lets the
peripherals catch up, so a property that every move preserves is preserved by every
instruction.
-/

/-- Neither a store nor a catching up of the peripherals. -/
def Event.Silent : Event → Prop
  | .write _ _ => False
  | .catchUp _ => False
  | _ => True

/-- One thing that an instruction does to an execution. -/
inductive Move : Execution → Execution → Prop where
  | registers
      (start : Execution)
      (cpu : Cpu)
      (sameCycles : cpu.cycles = start.cpu.cycles)
      (sameIme : cpu.ime = start.cpu.ime) :
      Move start (start.withCpu cpu)
  | note
      (start : Execution)
      (event : Event)
      (silent : event.Silent) :
      Move start (start.noting event)
  | store
      (start : Execution)
      (address : UInt16)
      (value : UInt8) :
      Move start (start.storing address value)

/-- Any number of moves. -/
abbrev Moves := Relation.ReflTransGen Move

/-- The costs of the instructions. -/
def Cost (cycles : Nat) : Prop :=
  4 ∣ cycles ∧ 4 ≤ cycles ∧ cycles ≤ 24

instance : DecidablePred Cost :=
  fun _ => inferInstanceAs (Decidable (_ ∧ _))

/-- The greater of two costs is a cost. -/
theorem Cost.max
    {left right : Nat}
    (leftCost : Cost left)
    (rightCost : Cost right) :
    Cost (Max.max left right) := by
  rcases Nat.le_total left right with less | more
  · rwa [Nat.max_eq_right less]
  · rwa [Nat.max_eq_left more]

/-- The cost of an access depends on the operand, but is a cost either way. -/
theorem Operand.cost_cost
    {memory register : Nat}
    (memoryCost : Cost memory)
    (registerCost : Cost register)
    (operand : Operand) :
    Cost (operand.cost memory register) := by
  cases operand with
  | memory => exact memoryCost
  | register name => exact registerCost

namespace Action

variable {α β : Type}

/-- The action only moves, and a result that it returns is as described. -/
def Moving
    (action : Action α)
    (good : α → Prop) :
    Prop :=
  ∀ start : Execution,
    Ensures action start
      (fun result final => Moves start final ∧ good result)
      (fun _ final => Moves start final)

namespace Moving

/-- To return a result takes no move. -/
theorem pure
    {good : α → Prop}
    {result : α}
    (holds : good result) :
    Moving (Pure.pure result) good :=
  fun _ => ⟨.refl, holds⟩

theorem throw
    {good : α → Prop}
    (fault : Fault) :
    Moving (MonadExcept.throw fault) good :=
  fun _ => Relation.ReflTransGen.refl

/-- Actions that move can be carried out one after the other. -/
theorem bind
    {first : Action β}
    {next : β → Action α}
    {between : β → Prop}
    {good : α → Prop}
    (firstMoves : Moving first between)
    (nextMoves : ∀ result, between result → Moving (next result) good) :
    Moving (first >>= next) good := by
  intro start
  rw [ensures_bind]
  refine (firstMoves start).mono ?_ ?_
  · rintro result middle ⟨toMiddle, holds⟩
    refine (nextMoves result holds middle).mono ?_ ?_
    · rintro final' final ⟨toFinal, finalHolds⟩
      exact ⟨toMiddle.trans toFinal, finalHolds⟩
    · intro fault final toFinal
      exact toMiddle.trans toFinal
  · intro fault final toFinal
    exact toFinal

/-- Actions that move, the result of the first of which tells nothing. -/
theorem andThen
    {first : Action β}
    {next : β → Action α}
    {between : β → Prop}
    {good : α → Prop}
    (firstMoves : Moving first between)
    (nextMoves : ∀ result, Moving (next result) good) :
    Moving (first >>= next) good :=
  firstMoves.bind fun result _ => nextMoves result

theorem ite
    {condition : Prop}
    [Decidable condition]
    {whenTrue whenFalse : Action α}
    {good : α → Prop}
    (trueMoves : Moving whenTrue good)
    (falseMoves : Moving whenFalse good) :
    Moving (if condition then whenTrue else whenFalse) good := by
  split
  · exact trueMoves
  · exact falseMoves

end Moving

/-- Nothing is said of a result. -/
abbrev Anything (_ : α) : Prop :=
  True

section Primitives

theorem moving_cpu : Moving cpu Anything :=
  fun _ => ⟨.refl, trivial⟩

/-- The processor may change as long as its cycle count and its master enable stay. -/
theorem moving_modifyCpu
    {change : Cpu → Cpu}
    (sameCycles : ∀ cpu, (change cpu).cycles = cpu.cycles)
    (sameIme : ∀ cpu, (change cpu).ime = cpu.ime) :
    Moving (modifyCpu change) Anything :=
  fun start =>
    ⟨.single
      (.registers start _ (sameCycles start.cpu) (sameIme start.cpu)),
      trivial⟩

theorem moving_record
    (event : Event)
    (silent : event.Silent) :
    Moving (record event) Anything :=
  fun start => ⟨.single (.note start event silent), trivial⟩

theorem moving_writeByte
    (address : UInt16)
    (value : UInt8) :
    Moving (writeByte address value) Anything :=
  fun start => ⟨.single (.store start address value), trivial⟩

theorem moving_access (address : UInt16) :
    Moving (access address) Anything := by
  intro start
  rw [ensures_access]
  cases start.bus.read address with
  | ok value => exact ⟨.refl, trivial⟩
  | error fault => exact Relation.ReflTransGen.refl

end Primitives

section Accesses

theorem moving_readByte (address : UInt16) :
    Moving (readByte address) Anything :=
  (moving_record (.read address) trivial).andThen fun _ =>
    moving_access address

theorem moving_jumpTo (address : UInt16) :
    Moving (jumpTo address) Anything :=
  moving_modifyCpu (fun _ => rfl) (fun _ => rfl)

theorem moving_moveStack (address : UInt16) :
    Moving (moveStack address) Anything :=
  moving_modifyCpu (fun _ => rfl) (fun _ => rfl)

theorem moving_setFlags (flags : Flags) :
    Moving (setFlags flags) Anything :=
  moving_modifyCpu (fun _ => rfl) (fun _ => rfl)

theorem moving_setAccumulator (value : UInt8) :
    Moving (setAccumulator value) Anything :=
  moving_modifyCpu (fun _ => rfl) (fun _ => rfl)

theorem moving_fetchByte : Moving fetchByte Anything := by
  refine moving_cpu.andThen fun _ => ?_
  refine (moving_record (.fetch _) trivial).andThen fun _ => ?_
  refine (moving_access _).andThen fun _ => ?_
  refine (moving_jumpTo _).andThen fun _ => ?_
  exact .pure trivial

theorem moving_fetchWord : Moving fetchWord Anything := by
  refine moving_fetchByte.andThen fun _ => ?_
  refine moving_fetchByte.andThen fun _ => ?_
  exact .pure trivial

theorem moving_pushByte (value : UInt8) :
    Moving (pushByte value) Anything := by
  refine moving_cpu.andThen fun _ => ?_
  refine (moving_moveStack _).andThen fun _ => ?_
  exact moving_writeByte _ value

theorem moving_pushWord (value : UInt16) :
    Moving (pushWord value) Anything := by
  refine (moving_pushByte _).andThen fun _ => ?_
  exact moving_pushByte _

theorem moving_popByte : Moving popByte Anything := by
  refine moving_cpu.andThen fun _ => ?_
  refine (moving_readByte _).andThen fun _ => ?_
  refine (moving_moveStack _).andThen fun _ => ?_
  exact .pure trivial

theorem moving_popWord : Moving popWord Anything := by
  refine moving_popByte.andThen fun _ => ?_
  refine moving_popByte.andThen fun _ => ?_
  exact .pure trivial

theorem moving_readOperand (operand : Operand) :
    Moving (readOperand operand) Anything := by
  cases operand with
  | register name =>
      refine moving_cpu.andThen fun _ => ?_
      exact .pure trivial
  | memory =>
      refine moving_cpu.andThen fun _ => ?_
      exact moving_readByte _

/-- A byte register is neither the cycle count nor the master enable. -/
theorem moving_setRegister
    (register : Register)
    (value : UInt8) :
    Moving (modifyCpu (·.set register value)) Anything :=
  moving_modifyCpu
    (fun _ => by cases register <;> rfl)
    (fun _ => by cases register <;> rfl)

theorem moving_setPair
    (pair : Pair)
    (value : Cpu → UInt16) :
    Moving (modifyCpu fun cpu => cpu.setPair pair (value cpu)) Anything :=
  moving_modifyCpu
    (fun _ => by cases pair <;> rfl)
    (fun _ => by cases pair <;> rfl)

theorem moving_setStackPair
    (pair : StackPair)
    (value : UInt16) :
    Moving (modifyCpu (·.setStackPair pair value)) Anything :=
  moving_modifyCpu
    (fun _ => by cases pair <;> rfl)
    (fun _ => by cases pair <;> rfl)

theorem moving_requestIme (enable : Bool) :
    Moving (modifyCpu (·.requestIme enable)) Anything :=
  moving_modifyCpu (fun _ => rfl) (fun _ => rfl)

theorem moving_halt :
    Moving (modifyCpu fun cpu => { cpu with halted := true }) Anything :=
  moving_modifyCpu (fun _ => rfl) (fun _ => rfl)

theorem moving_writeOperand
    (operand : Operand)
    (value : UInt8) :
    Moving (writeOperand operand value) Anything := by
  cases operand with
  | register name => exact moving_setRegister name value
  | memory =>
      refine moving_cpu.andThen fun _ => ?_
      exact moving_writeByte _ value

end Accesses

section Parts

theorem moving_followPointer (pointer : Pointer) :
    Moving (followPointer pointer) Anything := by
  refine moving_cpu.andThen fun before => ?_
  cases pointer with
  | bc => exact .pure trivial
  | de => exact .pure trivial
  | hlIncrement =>
      refine (moving_setPair .hl fun _ => before.hl + 1).andThen fun _ => ?_
      exact .pure trivial
  | hlDecrement =>
      refine (moving_setPair .hl fun _ => before.hl - 1).andThen fun _ => ?_
      exact .pure trivial

theorem moving_operate
    (operation : AluOp)
    (value : UInt8) :
    Moving (operate operation value) Anything := by
  refine moving_cpu.andThen fun _ => ?_
  refine (moving_setFlags _).andThen fun _ => ?_
  refine .ite ?_ ?_
  · exact moving_setAccumulator _
  · exact .pure trivial

theorem moving_test (condition : Condition) :
    Moving (test condition) Anything := by
  refine moving_cpu.andThen fun _ => ?_
  exact .pure trivial

theorem moving_jumpBy (displacement : UInt8) :
    Moving (jumpBy displacement) Anything := by
  refine moving_cpu.andThen fun _ => ?_
  exact moving_jumpTo _

theorem moving_callTo (address : UInt16) :
    Moving (callTo address) Anything := by
  refine moving_cpu.andThen fun _ => ?_
  refine (moving_pushWord _).andThen fun _ => ?_
  exact moving_jumpTo address

theorem moving_returnToCaller : Moving returnToCaller Anything := by
  refine moving_popWord.andThen fun _ => ?_
  exact moving_jumpTo _

theorem moving_rotateAccumulator (rotation : Rotation) :
    Moving (rotateAccumulator rotation) Anything := by
  refine moving_cpu.andThen fun _ => ?_
  refine (moving_setAccumulator _).andThen fun _ => ?_
  exact moving_setFlags _

end Parts

end Action

end Dmg
