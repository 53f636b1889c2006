import Dmg.Proofs.StepCost
import Mathlib.Algebra.GroupWithZero.Nat

namespace Dmg

/-!
# Steps in a row

Successful steps are followed one after the other, with the cycles that each of them
returned.  What a step returns is what it has counted, so the steps of a row have
counted the sum of what they returned.
-/

/-- The cycles that several steps took together. -/
def totalCost (costs : List UInt64) : Nat :=
  (costs.map UInt64.toNat).sum

@[simp] theorem totalCost_nil : totalCost [] = 0 :=
  rfl

@[simp] theorem totalCost_cons
    (cost : UInt64)
    (costs : List UInt64) :
    totalCost (cost :: costs) = cost.toNat + totalCost costs :=
  rfl

@[simp] theorem totalCost_append (costs costs' : List UInt64) :
    totalCost (costs ++ costs') = totalCost costs + totalCost costs' := by
  simp [totalCost]

namespace Machine

/-- Successful steps, one after the other, and the cycles that each of them returned. -/
inductive Steps : Machine → List UInt64 → Machine → Prop where
  | none
      (machine : Machine) :
      Steps machine [] machine
  | next
      {machine final : Machine}
      {cost : UInt64}
      {execution : Execution}
      {costs : List UInt64}
      (stepped : machine.step = .ok cost execution)
      (rest : Steps execution.toMachine costs final) :
      Steps machine (cost :: costs) final

variable
  {machine middle final : Machine}
  {cost : UInt64}
  {costs : List UInt64}
  {execution : Execution}

/-- A step returns by how much it has moved the cycle count on, and that is its cost. -/
theorem step_cost (stepped : machine.step = .ok cost execution) :
    StepCost cost.toNat ∧
      execution.cpu.cycles = machine.cpu.cycles + cost := by
  obtain ⟨cycles, isCost, counted, rfl⟩ :=
    (Action.step_counts (.start machine)).of_ok stepped
  have small : (UInt64.ofNat cycles).toNat = cycles := by
    obtain ⟨-, -, atMost⟩ := isCost
    rw [UInt64.toNat_ofNat', Nat.mod_eq_of_lt (by omega)]
  rw [small]
  exact ⟨isCost, counted⟩

/-- A count that a step does not take round the end of the clock is a sum of numbers. -/
theorem toNat_step_cycles
    (stepped : machine.step = .ok cost execution)
    (inRange : machine.cpu.cycles.toNat + cost.toNat < 2 ^ 64) :
    execution.cpu.cycles.toNat =
      machine.cpu.cycles.toNat + cost.toNat := by
  rw [(step_cost stepped).2, UInt64.toNat_add, Nat.mod_eq_of_lt inRange]

namespace Steps

/-- Steps may be followed by further steps. -/
theorem trans
    {costs' : List UInt64}
    (toMiddle : machine.Steps costs middle)
    (toFinal : middle.Steps costs' final) :
    machine.Steps (costs ++ costs') final := by
  induction toMiddle with
  | none => exact toFinal
  | next stepped _ inductionHypothesis =>
      exact .next stepped (inductionHypothesis toFinal)

/-- Steps may be followed by one step more. -/
theorem snoc
    (toMiddle : machine.Steps costs middle)
    (stepped : middle.step = .ok cost execution) :
    machine.Steps (costs ++ [cost]) execution.toMachine :=
  toMiddle.trans (.next stepped (.none _))

/-- Steps have counted the sum of their costs. -/
theorem toNat_cycles
    (steps : machine.Steps costs final)
    (inRange : machine.cpu.cycles.toNat + totalCost costs < 2 ^ 64) :
    final.cpu.cycles.toNat =
      machine.cpu.cycles.toNat + totalCost costs := by
  induction steps with
  | none => rfl
  | next stepped _ inductionHypothesis =>
      rw [totalCost_cons] at inRange ⊢
      have counted := toNat_step_cycles stepped (by omega)
      rw [inductionHypothesis (by omega), counted, Nat.add_assoc]

end Steps

end Machine

end Dmg
