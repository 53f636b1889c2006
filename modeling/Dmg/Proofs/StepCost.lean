import Dmg.Proofs.InstructionMoves
import Dmg.Proofs.StepParts
import Mathlib.Algebra.Group.Nat.Defs

namespace Dmg

/-!
# What a step costs

The cycle count goes up by the cost of the instruction, and by the cost of a dispatch
if there is one; nothing else counts cycles.  A step that ends in a fault has counted
what came before the fault.
-/

/-- So many cycles are counted from one execution to another. -/
def Execution.Counts
    (cycles : Nat)
    (start final : Execution) :
    Prop :=
  final.cpu.cycles = start.cpu.cycles + UInt64.ofNat cycles

namespace Execution.Counts

variable {start middle final : Execution} {first second cycles : Nat}

/-- Nothing is counted as long as the count stays the same. -/
theorem of_same (same : final.cpu.cycles = start.cpu.cycles) :
    Counts 0 start final := by
  unfold Counts
  rw [same]
  exact (UInt64.add_zero _).symm

/-- Moves count nothing. -/
theorem of_moves (moves : Moves start final) :
    Counts 0 start final := by
  apply of_same
  induction moves with
  | refl => rfl
  | tail _ move inductionHypothesis =>
      rw [← inductionHypothesis]
      cases move with
      | registers cpu sameCycles sameIme => exact sameCycles
      | note event silent => rfl
      | store address value => rfl

theorem trans
    (toMiddle : Counts first start middle)
    (toFinal : Counts second middle final) :
    Counts (first + second) start final := by
  unfold Counts at toMiddle toFinal ⊢
  rw [toFinal, toMiddle, UInt64.ofNat_add, UInt64.add_assoc]

theorem same (counts : Counts 0 start final) :
    final.cpu.cycles = start.cpu.cycles :=
  Eq.trans counts (UInt64.add_zero _)

/-- A count that stays in the range of the clock is a sum of numbers. -/
theorem toNat
    (counts : Counts cycles start final)
    (inRange : start.cpu.cycles.toNat + cycles < 2 ^ 64) :
    final.cpu.cycles.toNat = start.cpu.cycles.toNat + cycles := by
  have counted : (UInt64.ofNat cycles).toNat = cycles := by
    rw [UInt64.toNat_ofNat', Nat.mod_eq_of_lt (by omega)]
  rw [counts, UInt64.toNat_add, counted, Nat.mod_eq_of_lt inRange]

/-- A count that stays in the range of the clock does not go back. -/
theorem le
    (counts : Counts cycles start final)
    (inRange : start.cpu.cycles.toNat + cycles < 2 ^ 64) :
    start.cpu.cycles ≤ final.cpu.cycles := by
  rw [UInt64.le_iff_toNat_le, counts.toNat inRange]
  exact Nat.le_add_right _ _

end Execution.Counts

/-- The costs of the part of a step that serves interrupts. -/
def ServiceCost (cycles : Nat) : Prop :=
  cycles = 0 ∨ cycles = 20

/-- The costs of a step. -/
def StepCost (cycles : Nat) : Prop :=
  4 ∣ cycles ∧ 4 ≤ cycles ∧ cycles ≤ 44

/-- The costs of the two parts of a step make up the cost of a step. -/
theorem stepCost_add
    {cost service : Nat}
    (isCost : Cost cost)
    (isService : ServiceCost service) :
    StepCost (cost + service) := by
  obtain ⟨fours, atLeast, atMost⟩ := isCost
  unfold StepCost
  rcases isService with none | one
  · omega
  · omega

/-- To let a requested change of the master enable take effect takes no time. -/
theorem Cpu.latchIme_cycles (cpu : Cpu) :
    cpu.latchIme.cycles = cpu.cycles := by
  unfold latchIme
  split
  · rfl
  · split <;> rfl

namespace Execution

theorem counts_elapsing
    (execution : Execution)
    (cost : Nat) :
    execution.Counts cost (execution.elapsing cost) :=
  Cpu.latchIme_cycles (execution.spending (.ofNat cost)).cpu

theorem counts_dispatching
    (execution : Execution)
    (source : Interrupt) :
    execution.Counts 20 (execution.dispatching source) :=
  rfl

/-- Offering an interrupt counts the cost of a dispatch if there is one. -/
theorem counts_offering
    (execution : Execution)
    (source : Interrupt) :
    ∃ cycles, ServiceCost cycles ∧
      execution.Counts cycles (execution.offering source) := by
  unfold offering
  split
  · exact ⟨20, .inr rfl, execution.counts_dispatching source⟩
  · exact ⟨0, .inl rfl, .of_same rfl⟩

/-- Serving interrupts counts the cost of one dispatch at most. -/
theorem counts_serving (execution : Execution) :
    ∃ cycles, ServiceCost cycles ∧
      execution.Counts cycles execution.serving := by
  unfold serving
  split
  · exact ⟨0, .inl rfl, .of_same rfl⟩
  · exact counts_offering _ _

/-- What follows the catching up counts the cost of one dispatch at most. -/
theorem counts_settling (execution : Execution) :
    ∃ cycles, ServiceCost cycles ∧
      execution.Counts cycles execution.settling :=
  execution.counts_serving

/-- An instruction and what follows it count the cost of a step. -/
theorem counts_elapsing_settling
    {start middle : Execution}
    {cost : Nat}
    (moves : Moves start middle)
    (isCost : Cost cost) :
    ∃ cycles, StepCost cycles ∧
      start.Counts cycles (middle.elapsing cost).settling := by
  obtain ⟨service, isService, settled⟩ :=
    (middle.elapsing cost).counts_settling
  have total :=
    ((Counts.of_moves moves).trans (middle.counts_elapsing cost)).trans
      settled
  rw [Nat.zero_add] at total
  exact ⟨cost + service, stepCost_add isCost isService, total⟩

end Execution

namespace Action

/-- To execute or to idle is to move, at a cost that is returned. -/
theorem executeOrIdle_moving : Moving executeOrIdle Cost := by
  refine moving_cpu.andThen fun before => ?_
  refine .ite ?_ ?_
  · exact .pure (by decide)
  · exact executeNext_moving

/--
A step returns the cycles that it has counted, which are the cost of an instruction and
perhaps that of a dispatch.  A step that fails has counted nothing, or as much.
-/
theorem step_counts (start : Execution) :
    Ensures step start
      (fun cost final =>
        ∃ cycles, StepCost cycles ∧ start.Counts cycles final ∧
          cost = UInt64.ofNat cycles)
      (fun _ final =>
        ∃ cycles, (cycles = 0 ∨ StepCost cycles) ∧
          start.Counts cycles final) := by
  rw [ensures_step]
  refine (executeOrIdle_moving start).mono ?_ ?_
  · rintro cost middle ⟨moves, isCost⟩
    obtain ⟨cycles, isStepCost, counted⟩ :=
      Execution.counts_elapsing_settling moves isCost
    dsimp only
    split
    · refine ⟨cycles, isStepCost, counted, ?_⟩
      -- The cost is taken as a difference of counts, even round the end of the clock.
      rw [counted, UInt64.add_comm, UInt64.add_sub_cancel]
    · exact ⟨cycles, .inr isStepCost, counted⟩
  · intro fault final moves
    exact ⟨0, .inl rfl, .of_moves moves⟩

end Action

end Dmg
