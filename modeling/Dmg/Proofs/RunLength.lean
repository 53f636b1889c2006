import Dmg.Proofs.ClockLock
import Dmg.Proofs.Halt

namespace Dmg

/-!
# How long a run is

A run is bounded by a number of steps, but what ends it is the cycle count: every step
takes at least four cycles, so that a quarter of the cycles asked for is enough.  As
long as no count goes beyond half the range of the clock, a run for so many cycles ends
at the first step at which they have passed, or at the first step that fails before.
Two runs in a row are one run for what the first has taken and what is asked of the
second.
-/

theorem toNat_greatestCount : greatestCount.toNat = 2 ^ 64 - 1 :=
  rfl

/-- The sum of two counts is cut off at the greatest count. -/
theorem toNat_saturatingAdd (left right : UInt64) :
    (saturatingAdd left right).toNat =
      min (left.toNat + right.toNat) (2 ^ 64 - 1) := by
  have leftBound := left.toNat_lt
  have rightBound := right.toNat_lt
  have sum := UInt64.toNat_add left right
  unfold saturatingAdd
  split
  case isTrue carried =>
    rw [UInt64.lt_iff_toNat_lt] at carried
    rw [toNat_greatestCount]
    omega
  case isFalse kept =>
    rw [UInt64.lt_iff_toNat_lt] at kept
    omega

namespace Machine

namespace Steps

variable
  {machine final other : Machine}
  {costs others : List UInt64}

/-- Fewer steps are the first ones of more. -/
theorem eq_take
    (steps : machine.Steps costs final)
    (fewer : machine.Steps others other)
    (shorter : others.length ≤ costs.length) :
    others = costs.take others.length := by
  induction fewer generalizing costs with
  | none => rfl
  | next stepped _ inductionHypothesis =>
      cases steps with
      | none => cases shorter
      | next alsoStepped rest =>
          cases alsoStepped.symm.trans stepped
          rw [List.length_cons, List.take_succ_cons,
            ← inductionHypothesis rest (Nat.le_of_succ_le_succ shorter)]

end Steps

/--
A run steps until the cycle count is no longer below the bound, or until a step fails;
the steps that succeed return these costs.
-/
inductive Ends (bound : UInt64) :
    Machine → List UInt64 → Machine → Option Fault → Prop where
  | reached
      {machine : Machine}
      (notBelow : ¬ machine.cpu.cycles < bound) :
      Ends bound machine [] machine none
  | failed
      {machine : Machine}
      {fault : Fault}
      {execution : Execution}
      (below : machine.cpu.cycles < bound)
      (failed : machine.step = .error fault execution) :
      Ends bound machine [] execution.toMachine (some fault)
  | stepped
      {machine final : Machine}
      {cost : UInt64}
      {execution : Execution}
      {costs : List UInt64}
      {fault : Option Fault}
      (below : machine.cpu.cycles < bound)
      (stepped : machine.step = .ok cost execution)
      (rest : Ends bound execution.toMachine costs final fault) :
      Ends bound machine (cost :: costs) final fault

/-- The steps that were begun: those that succeeded, and one that failed. -/
def begun
    (costs : List UInt64)
    (fault : Option Fault) :
    Nat :=
  costs.length + fault.toList.length

namespace Ends

variable
  {bound bound' : UInt64}
  {machine middle final : Machine}
  {costs costs' : List UInt64}
  {fault : Option Fault}

/-- A run is what an end says, as soon as its allowance is enough to come to it. -/
theorem runWhile_eq
    (ends : Ends bound machine costs final fault)
    (observe : Outcome UInt64 → σ → σ)
    (observed : σ)
    {allowance : Nat}
    (enough : begun costs fault ≤ allowance) :
    machine.runWhile bound observe allowance observed =
      { machine := final
        fault := fault
        observed :=
          (machine.runWhile bound observe (begun costs fault)
            observed).observed } := by
  induction ends generalizing allowance observed with
  | reached notBelow =>
      cases allowance with
      | zero => rfl
      | succ allowance =>
          rw [runWhile, if_neg notBelow]
          rfl
  | failed below failed =>
      cases allowance with
      | zero => cases enough
      | succ allowance =>
          simp only [begun, List.length_nil, Option.toList_some,
            List.length_singleton, runWhile, if_pos below, failed]
  | @stepped machine final cost execution costs fault below stepped _
      inductionHypothesis =>
      have longer : begun (cost :: costs) fault = begun costs fault + 1 := by
        simp only [begun, List.length_cons]
        omega
      rw [longer] at enough ⊢
      cases allowance with
      | zero => cases enough
      | succ allowance =>
          simp only [runWhile, if_pos below, stepped]
          exact inductionHypothesis _ (Nat.le_of_succ_le_succ enough)

/-- A run with a higher bound goes on from where one with a lower bound ends. -/
theorem runWhile_append
    (ends : Ends bound machine costs middle none)
    (higher : bound ≤ bound')
    (observe : Outcome UInt64 → σ → σ)
    (observed : σ)
    (allowance : Nat) :
    machine.runWhile bound' observe (costs.length + allowance) observed =
      middle.runWhile bound' observe allowance
        (machine.runWhile bound observe costs.length observed).observed := by
  generalize ended : (none : Option Fault) = fault at ends
  induction ends generalizing observed with
  | reached =>
      rw [List.length_nil, Nat.zero_add]
      rfl
  | failed => cases ended
  | stepped below stepped _ inductionHypothesis =>
      have alsoBelow := UInt64.lt_of_lt_of_le below higher
      rw [List.length_cons, Nat.succ_add]
      simp only [runWhile, if_pos below, if_pos alsoBelow, stepped]
      exact inductionHypothesis _ ended

/-- An end at a bound and one at a higher bound from there are one end. -/
theorem append
    (ends : Ends bound machine costs middle none)
    (higher : bound ≤ bound')
    (goesOn : Ends bound' middle costs' final fault) :
    Ends bound' machine (costs ++ costs') final fault := by
  generalize ended : (none : Option Fault) = unfailed at ends
  induction ends with
  | reached => exact goesOn
  | failed => cases ended
  | stepped below stepped _ inductionHypothesis =>
      exact .stepped (UInt64.lt_of_lt_of_le below higher) stepped
        (inductionHypothesis goesOn ended)

/-- Without a fault, a run is a row of steps up to the bound. -/
theorem steps_of_none (ends : Ends bound machine costs final none) :
    machine.Steps costs final ∧ bound ≤ final.cpu.cycles := by
  generalize ended : (none : Option Fault) = fault at ends
  induction ends with
  | reached notBelow => exact ⟨.none _, UInt64.not_lt.mp notBelow⟩
  | failed => cases ended
  | stepped _ stepped _ inductionHypothesis =>
      obtain ⟨steps, reached⟩ := inductionHypothesis ended
      exact ⟨.next stepped steps, reached⟩

/-- A fault is that of the first step that fails. -/
theorem steps_of_some
    {fault : Fault}
    (ends : Ends bound machine costs final (some fault)) :
    ∃ middle execution,
      machine.Steps costs middle ∧
        middle.cpu.cycles < bound ∧
        middle.step = .error fault execution ∧
        final = execution.toMachine := by
  generalize ended : some fault = ending at ends
  induction ends with
  | reached => cases ended
  | failed below failed =>
      cases ended
      exact ⟨_, _, .none _, below, failed, rfl⟩
  | stepped _ stepped _ inductionHypothesis =>
      obtain ⟨middle, execution, steps, stopped⟩ := inductionHypothesis ended
      exact ⟨middle, execution, .next stepped steps, stopped⟩

section Range

variable
  (ends : Ends bound machine costs final fault)
  (inRange : machine.cpu.cycles.toNat + totalCost costs < 2 ^ 64)
include ends inRange

/-- Before each step the count is below the bound. -/
theorem below_of_lt
    {count : Nat}
    (earlier : count < costs.length) :
    machine.cpu.cycles.toNat + totalCost (costs.take count) <
      bound.toNat := by
  induction ends generalizing count with
  | reached => cases earlier
  | failed => cases earlier
  | stepped below stepped _ inductionHypothesis =>
      rw [totalCost_cons] at inRange
      have counted := toNat_step_cycles stepped (by omega)
      cases count with
      | zero => exact UInt64.lt_iff_toNat_lt.mp below
      | succ count =>
          have belowLater :=
            inductionHypothesis (by omega)
              (Nat.lt_of_succ_lt_succ earlier)
          rw [List.take_succ_cons, totalCost_cons]
          omega

/-- Every step that is begun takes at least four of the cycles asked for. -/
theorem four_mul_begun_le :
    4 * begun costs fault ≤
      bound.toNat - machine.cpu.cycles.toNat + 3 := by
  induction ends with
  | reached => exact Nat.zero_le _
  | failed below =>
      have belowBound := UInt64.lt_iff_toNat_lt.mp below
      simp only [begun, List.length_nil, Option.toList_some,
        List.length_singleton]
      omega
  | stepped below stepped _ inductionHypothesis =>
      rw [totalCost_cons] at inRange
      have belowBound := UInt64.lt_iff_toNat_lt.mp below
      have counted := toNat_step_cycles stepped (by omega)
      obtain ⟨⟨-, atLeast, -⟩, -⟩ := step_cost stepped
      have begunLater := inductionHypothesis (by omega)
      simp only [begun, List.length_cons] at begunLater ⊢
      omega

/-- The last step passes the bound by what it takes itself, and no more. -/
theorem total_le :
    machine.cpu.cycles.toNat + totalCost costs ≤
      max machine.cpu.cycles.toNat (bound.toNat + 43) := by
  induction ends with
  | reached => exact Nat.le_max_left _ _
  | failed => exact Nat.le_max_left _ _
  | stepped below stepped _ inductionHypothesis =>
      rw [totalCost_cons] at inRange ⊢
      have belowBound := UInt64.lt_iff_toNat_lt.mp below
      have counted := toNat_step_cycles stepped (by omega)
      obtain ⟨⟨-, -, atMost⟩, -⟩ := step_cost stepped
      have totalLater := inductionHypothesis (by omega)
      omega

/-- No fewer steps reach the bound. -/
theorem length_le
    {other : Machine}
    {others : List UInt64}
    (ran : machine.Steps costs middle)
    (steps : machine.Steps others other)
    (reached :
      bound.toNat ≤ machine.cpu.cycles.toNat + totalCost others) :
    costs.length ≤ others.length := by
  apply Nat.le_of_not_lt
  intro fewer
  have below := ends.below_of_lt inRange fewer
  rw [← ran.eq_take steps (Nat.le_of_lt fewer)] at below
  omega

end Range

end Ends

/-- A run that is allowed enough steps comes to its end within the clock. -/
theorem ends_of_within
    {bound : UInt64}
    {allowance : Nat}
    {session : Session}
    (bounded : session.machine.cpu.cycles.toNat < 2 ^ 63)
    (enough :
      bound.toNat ≤ session.machine.cpu.cycles.toNat + 4 * allowance)
    (within : (session.ranWhile bound allowance).WithinClock) :
    ∃ costs final fault,
      Ends bound session.machine costs final fault ∧
        session.machine.cpu.cycles.toNat + totalCost costs < 2 ^ 63 := by
  induction allowance generalizing session with
  | zero =>
      have notBelow : ¬ session.machine.cpu.cycles < bound := by
        rw [UInt64.lt_iff_toNat_lt]
        omega
      exact ⟨[], _, none, .reached notBelow, bounded⟩
  | succ allowance inductionHypothesis =>
      by_cases below : session.machine.cpu.cycles < bound
      case neg => exact ⟨[], _, none, .reached below, bounded⟩
      case pos =>
        cases outcome : session.machine.step with
        | error fault execution =>
            exact ⟨[], _, some fault, .failed below outcome, bounded⟩
        | ok cost execution =>
            have goesOn :
                session.ranWhile bound (allowance + 1) =
                  (session.extend execution).ranWhile bound allowance := by
              simp only [Session.ranWhile, runWhile, if_pos below, outcome]
              rfl
            rw [goesOn] at within
            have withinBefore :=
              Session.withinClock_of_later
                (Session.later_ranWhile _ _ _) within
            have boundedNext : execution.cpu.cycles.toNat < 2 ^ 63 :=
              withinBefore execution List.mem_cons_self
            obtain ⟨⟨-, atLeast, atMost⟩, -⟩ := step_cost outcome
            have counted := toNat_step_cycles outcome (by omega)
            -- The step took four cycles or more, so the rest of the allowance is enough.
            obtain ⟨costs, final, fault, ends, inRange⟩ :=
              @inductionHypothesis (session.extend execution) boundedNext
                (by
                  change bound.toNat ≤
                    execution.cpu.cycles.toNat + 4 * allowance
                  omega)
                within
            change execution.cpu.cycles.toNat + _ < _ at inRange
            refine ⟨cost :: costs, final, fault,
              .stepped below outcome ends, ?_⟩
            rw [totalCost_cons]
            omega

/-- The count at which a run for so many cycles has come to its end. -/
def target
    (machine : Machine)
    (cycles : UInt64) :
    UInt64 :=
  saturatingAdd machine.cpu.cycles cycles

/--
These are the costs of the fewest steps that take so many cycles.  They are as many as a
quarter of that number at most, and only the last of them may go beyond it.
-/
structure Completes
    (machine : Machine)
    (cycles : Nat)
    (costs : List UInt64)
    (final : Machine) :
    Prop where
  steps : machine.Steps costs final
  enough : cycles ≤ totalCost costs
  fewest :
    ∀ others other,
      machine.Steps others other →
        cycles ≤ totalCost others → costs.length ≤ others.length
  few : costs.length ≤ (cycles + 3) / 4
  nothing : cycles = 0 → totalCost costs = 0
  notMuchMore : totalCost costs ≤ cycles + 43

/-- After steps of these costs a step fails, before so many cycles have passed. -/
structure Breaks
    (machine : Machine)
    (cycles : Nat)
    (costs : List UInt64)
    (middle : Machine)
    (fault : Fault)
    (execution : Execution) :
    Prop where
  steps : machine.Steps costs middle
  fails : middle.step = .error fault execution
  early : totalCost costs < cycles
  few : costs.length + 1 ≤ (cycles + 3) / 4

section Target

variable
  {machine final : Machine}
  {cycles : UInt64}
  {costs : List UInt64}
  {fault : Option Fault}

theorem toNat_target :
    (machine.target cycles).toNat =
      min (machine.cpu.cycles.toNat + cycles.toNat) (2 ^ 64 - 1) :=
  toNat_saturatingAdd _ _

/-- The count of the processor is not beyond the target. -/
theorem toNat_target_sub :
    (machine.target cycles - machine.cpu.cycles).toNat =
      (machine.target cycles).toNat - machine.cpu.cycles.toNat := by
  have reach := @toNat_target machine cycles
  have count := machine.cpu.cycles.toNat_lt
  refine UInt64.toNat_sub_of_le _ _ (UInt64.le_iff_toNat_le.mpr ?_)
  omega

/-- A run for so many cycles goes through as many executions at most. -/
theorem length_past_runFor_le (session : Session) :
    (session.after (.runFor cycles)).past.length ≤
      session.past.length + cycles.toNat := by
  have reach := @toNat_target session.machine cycles
  have allowed := @toNat_target_sub session.machine cycles
  have fits :=
    session.length_past_ranWhile_le (session.machine.target cycles)
      (session.machine.target cycles - session.machine.cpu.cycles).toNat
  change (session.after (.runFor cycles)).past.length ≤ _ at fits
  omega

/-- A run for so many cycles comes to its end within the clock. -/
theorem ends_of_within_runFor
    {session : Session}
    (bounded : session.machine.cpu.cycles.toNat < 2 ^ 63)
    (within : (session.after (.runFor cycles)).WithinClock) :
    ∃ costs final fault,
      Ends (session.machine.target cycles) session.machine
          costs final fault ∧
        session.machine.cpu.cycles.toNat + totalCost costs < 2 ^ 63 := by
  have allowed := @toNat_target_sub session.machine cycles
  refine ends_of_within bounded ?_ within
  change _ ≤
    _ + 4 * (session.machine.target cycles - session.machine.cpu.cycles).toNat
  omega

namespace Ends

variable
  (ends : Ends (machine.target cycles) machine costs final fault)
  (inRange : machine.cpu.cycles.toNat + totalCost costs < 2 ^ 64)
include ends inRange

/-- A quarter of the cycles asked for is enough for all steps that are begun. -/
theorem begun_le : begun costs fault ≤ (cycles.toNat + 3) / 4 := by
  have reach := @toNat_target machine cycles
  have begunBound := ends.four_mul_begun_le (by omega)
  omega

/-- Any allowance that is enough leads to the same end. -/
theorem runFor_eq
    (observe : Outcome UInt64 → σ → σ)
    (observed : σ) :
    machine.runFor observe cycles observed =
      { machine := final
        fault := fault
        observed :=
          (machine.runWhile (machine.target cycles) observe
            (begun costs fault) observed).observed } := by
  have allowed := @toNat_target_sub machine cycles
  have begunBound := ends.four_mul_begun_le (by omega)
  refine ends.runWhile_eq observe observed ?_
  change _ ≤ (machine.target cycles - machine.cpu.cycles).toNat
  omega

theorem runWhile_eq_runFor
    (observe : Outcome UInt64 → σ → σ)
    (observed : σ)
    {allowance : Nat}
    (enough : (cycles.toNat + 3) / 4 ≤ allowance) :
    machine.runWhile (machine.target cycles) observe allowance observed =
      machine.runFor observe cycles observed := by
  rw [ends.runFor_eq inRange]
  exact ends.runWhile_eq observe observed
    (Nat.le_trans (ends.begun_le inRange) enough)

end Ends

/-- A run that ends without a fault has taken the fewest steps. -/
theorem Ends.completes
    (ends : Ends (machine.target cycles) machine costs final none)
    (inRange : machine.cpu.cycles.toNat + totalCost costs < 2 ^ 63) :
    machine.Completes cycles.toNat costs final := by
  have reach := @toNat_target machine cycles
  have few : costs.length ≤ _ := ends.begun_le (by omega)
  obtain ⟨steps, reached⟩ := ends.steps_of_none
  rw [UInt64.le_iff_toNat_le, steps.toNat_cycles (by omega)] at reached
  constructor
  · exact steps
  · omega
  · intro others other otherSteps enough
    exact ends.length_le (by omega) steps otherSteps (by omega)
  · exact few
  · intro zero
    rw [zero] at few
    rw [List.length_eq_zero_iff.mp (Nat.le_zero.mp few), totalCost_nil]
  · have total := ends.total_le (by omega)
    omega

/-- A run that ends with a fault has come to the first step that fails. -/
theorem Ends.breaks
    {fault : Fault}
    (ends : Ends (machine.target cycles) machine costs final (some fault))
    (inRange : machine.cpu.cycles.toNat + totalCost costs < 2 ^ 63) :
    ∃ middle execution,
      machine.Breaks cycles.toNat costs middle fault execution ∧
        final = execution.toMachine := by
  have reach := @toNat_target machine cycles
  have few : costs.length + 1 ≤ _ := ends.begun_le (by omega)
  obtain ⟨middle, execution, steps, below, fails, left⟩ :=
    ends.steps_of_some
  rw [UInt64.lt_iff_toNat_lt, steps.toNat_cycles (by omega)] at below
  exact ⟨middle, execution, ⟨steps, fails, by omega, few⟩, left⟩

/-- What a run has returned is what its steps have returned together. -/
theorem Steps.elapsedSince
    {run : Run σ}
    (steps : machine.Steps costs run.machine)
    (inRange : machine.cpu.cycles.toNat + totalCost costs < 2 ^ 63) :
    (run.elapsedSince machine).toNat = totalCost costs := by
  have counted := steps.toNat_cycles (by omega)
  unfold Run.elapsedSince
  rw [UInt64.toNat_sub_of_le _ _ (UInt64.le_iff_toNat_le.mpr (by omega))]
  omega

/--
What a first run took and what is asked of a second one lead to the target of the
second, which is not below that of the first.
-/
theorem Ends.target_add
    {middle : Machine}
    {first second ran : UInt64}
    {costs' : List UInt64}
    (ends : Ends (machine.target first) machine costs middle none)
    (ends' : Ends (middle.target second) middle costs' final none)
    (inRange : machine.cpu.cycles.toNat + totalCost costs < 2 ^ 63)
    (inRange' : middle.cpu.cycles.toNat + totalCost costs' < 2 ^ 63)
    (counted : ran.toNat = totalCost costs) :
    machine.target (ran + second) = middle.target second ∧
      machine.target first ≤ middle.target second := by
  have middleCount := ends.steps_of_none.1.toNat_cycles (by omega)
  have firstEnough := (ends.completes inRange).enough
  have secondEnough := (ends'.completes inRange').enough
  have sum : (ran + second).toNat = totalCost costs + second.toNat := by
    rw [UInt64.toNat_add, counted, Nat.mod_eq_of_lt (by omega)]
  rw [← UInt64.toNat_inj, UInt64.le_iff_toNat_le]
  simp only [toNat_target]
  omega

/-- Two runs that end one after the other end as one run. -/
theorem Ends.runFor_add
    {middle : Machine}
    {first second ran : UInt64}
    {costs' : List UInt64}
    (ends : Ends (machine.target first) machine costs middle none)
    (ends' : Ends (middle.target second) middle costs' final none)
    (inRange : machine.cpu.cycles.toNat + totalCost costs < 2 ^ 63)
    (inRange' : middle.cpu.cycles.toNat + totalCost costs' < 2 ^ 63)
    (counted : ran.toNat = totalCost costs)
    (observe : Outcome UInt64 → σ → σ)
    (observed : σ) :
    machine.runFor observe (ran + second) observed =
      middle.runFor observe second
        (machine.runFor observe first observed).observed := by
  obtain ⟨sameTarget, higher⟩ :=
    ends.target_add ends' inRange inRange' counted
  have whole := ends.append higher ends'
  rw [← sameTarget] at whole
  have inRangeWhole :
      machine.cpu.cycles.toNat + totalCost (costs ++ costs') < 2 ^ 63 := by
    rw [ends.steps_of_none.1.toNat_cycles (by omega)] at inRange'
    rwa [totalCost_append, ← Nat.add_assoc]
  have longer :
      begun (costs ++ costs') none = costs.length + begun costs' none := by
    simp only [begun, List.length_append, Nat.add_assoc]
  rw [whole.runFor_eq (by omega), ends'.runFor_eq (by omega),
    ends.runFor_eq (by omega), sameTarget, longer,
    ends.runWhile_append higher]
  rfl

/-- Two runs in a row are one run for what the first took and the second was asked for. -/
theorem runFor_add
    {first second : UInt64}
    (bounded : machine.cpu.cycles.toNat < 2 ^ 63)
    (within :
      ((Session.start machine).afterAll
        [.runFor first, .runFor second]).WithinClock)
    (observe : Outcome UInt64 → σ → σ)
    (observed : σ) :
    let firstRun := machine.runFor observe first observed
    let secondRun :=
      firstRun.machine.runFor observe second firstRun.observed
    let ran := firstRun.elapsedSince machine
    firstRun.fault = none →
      secondRun.fault = none →
      machine.runFor observe (ran + second) observed = secondRun ∧
        secondRun.elapsedSince machine =
          ran + secondRun.elapsedSince firstRun.machine := by
  intro firstRun secondRun ran firstComplete secondComplete
  let session := (Session.start machine).after (.runFor first)
  have withinFirst :=
    Session.withinClock_of_later
      (Session.later_after session (.runFor second)) within
  obtain ⟨costs, middle, fault, ends, inRange⟩ :=
    @ends_of_within_runFor first (.start machine) bounded withinFirst
  change Ends (machine.target first) machine costs middle fault at ends
  change machine.cpu.cycles.toNat + totalCost costs < 2 ^ 63 at inRange
  have firstEq : firstRun = _ :=
    ends.runFor_eq (by omega) observe observed
  obtain rfl : fault = none := by
    rw [← firstComplete, firstEq]
  have left : firstRun.machine = middle := congrArg Run.machine firstEq
  obtain ⟨steps, -⟩ := ends.steps_of_none
  -- The session has recorded its executions, which makes no difference to the machine.
  have sameMiddle : session.machine = middle :=
    congrArg Run.machine (ends.runFor_eq (by omega) _ _)
  have boundedMiddle : session.machine.cpu.cycles.toNat < 2 ^ 63 := by
    rw [sameMiddle, steps.toNat_cycles (by omega)]
    exact inRange
  obtain ⟨costs', final, fault, ends', inRange'⟩ :=
    ends_of_within_runFor boundedMiddle within
  rw [sameMiddle] at ends' inRange'
  have secondEq :
      secondRun = middle.runFor observe second firstRun.observed := by
    rw [← left]
  obtain rfl : fault = none := by
    rw [← secondComplete, secondEq, ends'.runFor_eq (by omega)]
  have counted : ran.toNat = totalCost costs :=
    Steps.elapsedSince (by rwa [left]) inRange
  constructor
  · rw [secondEq]
    exact ends.runFor_add ends' inRange inRange' counted observe observed
  · change secondRun.machine.cpu.cycles - machine.cpu.cycles =
      firstRun.machine.cpu.cycles - machine.cpu.cycles +
        (secondRun.machine.cpu.cycles - firstRun.machine.cpu.cycles)
    grind

end Target

/--
A step returns what it has counted, which is a multiple of four from 4 to 44.  So, as
long as all counts stay within half the range of the clock, a run for so many cycles
ends after the fewest steps that take as many, however many steps it is allowed from a
quarter of that number on; or it ends with the first fault, and with what that step has
left.  Two runs in a row are one run for what the first took and what was asked of the
second.
-/
theorem runFor_takes_fewest_steps
    (machine : Machine)
    (observe : Outcome UInt64 → σ → σ)
    (observed : σ) :
    (∀ cost execution,
        machine.step = .ok cost execution →
          StepCost cost.toNat ∧
            execution.cpu.cycles = machine.cpu.cycles + cost) ∧
      (∀ cycles,
        machine.cpu.cycles.toNat < 2 ^ 63 →
          ((Session.start machine).after (.runFor cycles)).WithinClock →
          let run := machine.runFor observe cycles observed
          (∀ allowance,
              (cycles.toNat + 3) / 4 ≤ allowance →
                machine.runWhile (machine.target cycles) observe allowance
                  observed = run) ∧
            ∃ costs,
              match run.fault with
              | none =>
                  machine.Completes cycles.toNat costs run.machine ∧
                    (run.elapsedSince machine).toNat = totalCost costs
              | some fault =>
                  ∃ middle execution,
                    machine.Breaks cycles.toNat costs middle fault
                        execution ∧
                      run.machine = execution.toMachine) ∧
      ∀ first second,
        machine.cpu.cycles.toNat < 2 ^ 63 →
          ((Session.start machine).afterAll
            [.runFor first, .runFor second]).WithinClock →
          let firstRun := machine.runFor observe first observed
          let secondRun :=
            firstRun.machine.runFor observe second firstRun.observed
          let ran := firstRun.elapsedSince machine
          firstRun.fault = none →
            secondRun.fault = none →
            machine.runFor observe (ran + second) observed = secondRun ∧
              secondRun.elapsedSince machine =
                ran + secondRun.elapsedSince firstRun.machine := by
  refine ⟨?_, ?_, ?_⟩
  · intro cost execution stepped
    exact step_cost stepped
  · intro cycles bounded within
    obtain ⟨costs, final, fault, ends, inRange⟩ :=
      @ends_of_within_runFor cycles (.start machine) bounded within
    change Ends (machine.target cycles) machine costs final fault at ends
    change machine.cpu.cycles.toNat + totalCost costs < 2 ^ 63 at inRange
    refine ⟨fun allowance enough =>
      ends.runWhile_eq_runFor (by omega) observe observed enough, costs, ?_⟩
    rw [ends.runFor_eq (by omega)]
    cases fault with
    | none =>
        have completes := ends.completes inRange
        exact ⟨completes, Steps.elapsedSince completes.steps inRange⟩
    | some fault => exact ends.breaks inRange
  · intro first second bounded within
    exact runFor_add bounded within observe observed

/-- A halted processor that no source can wake up. -/
def asleep : Machine where
  cpu := { Cpu.powerOn with halted := true }
  bus := .powerOn .blank

/-- Asleep, the processor idles from slot to slot up to any bound. -/
theorem ends_asleep
    {bound : UInt64}
    {slots more : Nat}
    (small : slots + more < 2 ^ 60)
    (below : ∀ passed < more, asleep.countAfter (slots + passed) < bound)
    (reached : ¬ asleep.countAfter (slots + more) < bound) :
    Ends bound (asleep.idled slots) (List.replicate more 4)
      (asleep.idled (slots + more)) none := by
  have timely : asleep.Timely :=
    (Timely.powerOn .blank).of_same rfl rfl (.refl _)
  induction more generalizing slots with
  | zero => exact .reached (by rwa [idled_cycles])
  | succ more inductionHypothesis =>
      have next : slots + (more + 1) = slots + 1 + more := by
        omega
      have spans : asleep.SpansSlots (slots + 1) := by
        change 0 + 4 * (slots + 1) < 0 + 2 ^ 63
        omega
      obtain ⟨execution, stepped, left⟩ :=
        step_idled timely rfl rfl spans (Interrupt.due_zero _)
      have belowNow := below 0 (Nat.succ_pos more)
      rw [List.replicate_succ]
      refine .stepped (by rwa [idled_cycles]) stepped ?_
      rw [left, next]
      apply inductionHypothesis
      · omega
      · intro passed earlier
        have belowLater := below (passed + 1) (Nat.succ_lt_succ earlier)
        rwa [Nat.add_assoc, Nat.add_comm 1]
      · rwa [← next]

/-- Six cycles take two slots, five cycles more take two again, and so do 8 + 5 at once. -/
theorem runFor_takes_fewest_steps_asleep :
    let ignore (_ : Outcome UInt64) (_ : Unit) := ()
    asleep.cpu.cycles.toNat < 2 ^ 63 ∧
      ((Session.start asleep).afterAll
        [.runFor 6, .runFor 5]).WithinClock ∧
      asleep.runFor ignore 6 () = ⟨asleep.idled 2, none, ()⟩ ∧
      (asleep.idled 2).runFor ignore 5 () = ⟨asleep.idled 4, none, ()⟩ ∧
      asleep.runFor ignore (8 + 5) () = ⟨asleep.idled 4, none, ()⟩ := by
  intro ignore
  have bounded : asleep.cpu.cycles.toNat < 2 ^ 63 := by decide
  have within :
      ((Session.start asleep).afterAll
        [.runFor 6, .runFor 5]).WithinClock := by
    let session := (Session.start asleep).after (.runFor 6)
    have atFirst : session.past.length ≤ 0 + 6 :=
      length_past_runFor_le _
    have atSecond :
        (session.after (.runFor 5)).past.length ≤
          session.past.length + 5 :=
      length_past_runFor_le session
    refine (Session.withinClock_of_room (Session.later_afterAll _ _) ?_).1
    change 0 + 44 * (session.after (.runFor 5)).past.length < 2 ^ 63
    omega
  have firstEnds :
      Ends (asleep.target 6) asleep [4, 4] (asleep.idled 2) none :=
    @ends_asleep _ 0 2 (by decide) (by decide) (by decide)
  have secondEnds :
      Ends ((asleep.idled 2).target 5) (asleep.idled 2) [4, 4]
        (asleep.idled 4) none :=
    @ends_asleep _ 2 2 (by decide) (by decide) (by decide)
  have firstRun :
      asleep.runFor ignore 6 () = ⟨asleep.idled 2, none, ()⟩ :=
    firstEnds.runFor_eq (by decide) ignore ()
  have secondRun :
      (asleep.idled 2).runFor ignore 5 () =
        ⟨asleep.idled 4, none, ()⟩ :=
    secondEnds.runFor_eq (by decide) ignore ()
  have ran :
      Run.elapsedSince asleep ⟨asleep.idled 2, none, ()⟩ = 8 := by
    decide
  obtain ⟨-, -, composes⟩ :=
    runFor_takes_fewest_steps asleep ignore ()
  have composed := composes 6 5 bounded within
  simp only [firstRun, secondRun, ran] at composed
  exact ⟨bounded, within, firstRun, secondRun,
    (composed trivial trivial).1⟩

end Machine

end Dmg
