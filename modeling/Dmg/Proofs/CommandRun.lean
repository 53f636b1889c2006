import Dmg.Proofs.CartridgeHistory
import Dmg.Proofs.HandlerReturn
import Dmg.Proofs.RunLength
import Dmg.Runner.Report

namespace Dmg

/-!
# How a run from the command line ends

The command line bounds a run by a number of steps, by a number of cycles, or by both.
The run takes the fewest steps that use up one of these budgets, unless a step fails
before.  What it writes is a record of exactly these steps.  Without a bound on steps it
comes to the same end as a run of the machine for so many cycles.  It gives notice of its
start, of what happens in these steps, and of its end.
-/

/-- A step that succeeded: the cycles that it returned and what it left. -/
structure CompletedStep where
  cost : UInt64
  left : Execution

/-- The cycles that each step of a log returned. -/
def costsOf (log : List CompletedStep) : List UInt64 :=
  log.map (·.cost)

@[simp] theorem length_costsOf (log : List CompletedStep) :
    (costsOf log).length = log.length :=
  List.length_map _

/-- The notices of the steps of a log, the earliest first. -/
def noticesOf (log : List CompletedStep) : List Notice :=
  log.flatMap (·.left.notices)

@[simp] theorem noticesOf_append (earlier later : List CompletedStep) :
    noticesOf (earlier ++ later) = noticesOf earlier ++ noticesOf later :=
  List.flatMap_append

/-- What an observer makes of the steps of a log. -/
def observing
    (observe : Outcome UInt64 → σ → σ)
    (log : List CompletedStep)
    (observed : σ) :
    σ :=
  log.foldl
    (fun observed step => observe (.ok step.cost step.left) observed)
    observed

namespace Machine

/-- Successful steps, one after the other, with what each of them left. -/
inductive Logs : Machine → List CompletedStep → Machine → Prop where
  | none
      (machine : Machine) :
      Logs machine [] machine
  | next
      {machine final : Machine}
      {cost : UInt64}
      {execution : Execution}
      {log : List CompletedStep}
      (stepped : machine.step = .ok cost execution)
      (rest : Logs execution.toMachine log final) :
      Logs machine (⟨cost, execution⟩ :: log) final

/-- Before each of so many steps the count is below the bound. -/
def StaysBelow
    (machine : Machine)
    (bound : UInt64)
    (count : Nat) :
    Prop :=
  ∀ costs other,
    machine.Steps costs other →
      costs.length < count → other.cpu.cycles < bound

/-- Why a run that is allowed so many more steps takes none of them. -/
inductive Stops (bound : UInt64) (last : Machine) : Nat → Prop where
  | spent :
      Stops bound last 0
  | reached
      {more : Nat}
      (notBelow : ¬ last.cpu.cycles < bound) :
      Stops bound last more
  | failed
      {more : Nat}
      {fault : Fault}
      {execution : Execution}
      (below : last.cpu.cycles < bound)
      (failed : last.step = .error fault execution) :
      Stops bound last (more + 1)

variable
  {machine last final : Machine}
  {bound cost : UInt64}
  {execution : Execution}
  {costs : List UInt64}
  {log : List CompletedStep}
  {fault : Option Fault}
  {count : Nat}

namespace StaysBelow

theorem zero : machine.StaysBelow bound 0 := by
  intro costs other steps earlier
  cases earlier

theorem head (stays : machine.StaysBelow bound (count + 1)) :
    machine.cpu.cycles < bound :=
  stays [] machine (.none machine) (Nat.succ_pos count)

theorem tail
    (stays : machine.StaysBelow bound (count + 1))
    (stepped : machine.step = .ok cost execution) :
    execution.toMachine.StaysBelow bound count := by
  intro costs other steps earlier
  exact stays (cost :: costs) other (.next stepped steps)
    (Nat.succ_lt_succ earlier)

theorem cons
    (below : machine.cpu.cycles < bound)
    (stepped : machine.step = .ok cost execution)
    (stays : execution.toMachine.StaysBelow bound count) :
    machine.StaysBelow bound (count + 1) := by
  intro costs other steps earlier
  cases steps with
  | none => exact below
  | next alsoStepped rest =>
      cases alsoStepped.symm.trans stepped
      exact stays _ other rest (Nat.lt_of_succ_lt_succ earlier)

end StaysBelow

namespace Logs

theorem steps (logs : machine.Logs log last) :
    machine.Steps (costsOf log) last := by
  induction logs with
  | none => exact .none _
  | next stepped _ inductionHypothesis =>
      exact .next stepped inductionHypothesis

/-- A run goes through the steps of a log that stays below its bound. -/
theorem runWhile_eq
    (logs : machine.Logs log last)
    (stays : machine.StaysBelow bound log.length)
    (observe : Outcome UInt64 → σ → σ)
    (observed : σ)
    (more : Nat) :
    machine.runWhile bound observe (log.length + more) observed =
      last.runWhile bound observe more (observing observe log observed) := by
  induction logs generalizing observed with
  | none =>
      rw [List.length_nil, Nat.zero_add]
      rfl
  | next stepped _ inductionHypothesis =>
      rw [List.length_cons, Nat.succ_add]
      simp only [runWhile, if_pos stays.head, stepped]
      exact inductionHypothesis (stays.tail stepped) _

end Logs

/-- A run whose bound is reached goes no further. -/
theorem runWhile_of_reached
    (reached : ¬ last.cpu.cycles < bound)
    (observe : Outcome UInt64 → σ → σ)
    (observed : σ)
    (more : Nat) :
    last.runWhile bound observe more observed = ⟨last, none, observed⟩ := by
  cases more with
  | zero => rfl
  | succ more => rw [runWhile, if_neg reached]

/-- A step that fails ends a run, and is shown to its observer. -/
theorem runWhile_of_failed
    {fault : Fault}
    (below : last.cpu.cycles < bound)
    (failed : last.step = .error fault execution)
    (observe : Outcome UInt64 → σ → σ)
    (observed : σ)
    (more : Nat) :
    last.runWhile bound observe (more + 1) observed =
      ⟨execution.toMachine, some fault,
        observe (.error fault execution) observed⟩ := by
  simp only [runWhile, if_pos below, failed]

/-- Every run logs the steps that it takes, until it stops. -/
theorem exists_stop
    (machine : Machine)
    (bound : UInt64)
    (allowance : Nat) :
    ∃ log last more,
      machine.Logs log last ∧
        machine.StaysBelow bound log.length ∧
        log.length + more = allowance ∧
        Stops bound last more := by
  induction allowance generalizing machine with
  | zero => exact ⟨[], machine, 0, .none machine, .zero, rfl, .spent⟩
  | succ allowance inductionHypothesis =>
      have atOnce :
          ([] : List CompletedStep).length + (allowance + 1) =
            allowance + 1 :=
        Nat.zero_add _
      by_cases below : machine.cpu.cycles < bound
      case neg =>
        exact ⟨[], machine, _, .none machine, .zero, atOnce,
          .reached below⟩
      case pos =>
        cases outcome : machine.step with
        | error fault execution =>
            exact ⟨[], machine, _, .none machine, .zero, atOnce,
              .failed below outcome⟩
        | ok cost execution =>
            obtain ⟨log, last, more, logs, stays, counted, stops⟩ :=
              inductionHypothesis execution.toMachine
            refine ⟨⟨cost, execution⟩ :: log, last, more,
              .next outcome logs, .cons below outcome stays, ?_, stops⟩
            rw [List.length_cons, Nat.succ_add, counted]

namespace Steps

/-- Every step takes four cycles or more. -/
theorem four_mul_length_le (steps : machine.Steps costs last) :
    4 * costs.length ≤ totalCost costs := by
  induction steps with
  | none => exact Nat.le_refl _
  | next stepped _ inductionHypothesis =>
      obtain ⟨⟨-, atLeast, -⟩, -⟩ := step_cost stepped
      rw [List.length_cons, totalCost_cons]
      omega

/-- Steps keep the count a multiple of four, even round the end of the clock. -/
theorem four_dvd_cycles
    (steps : machine.Steps costs last)
    (fours : 4 ∣ machine.cpu.cycles.toNat) :
    4 ∣ last.cpu.cycles.toNat := by
  induction steps with
  | none => exact fours
  | next stepped _ inductionHypothesis =>
      obtain ⟨⟨costFours, -⟩, counted⟩ := step_cost stepped
      apply inductionHypothesis
      rw [counted, UInt64.toNat_add]
      omega

/-- A bound that leaves room for one step more is passed by no more than that. -/
theorem total_le
    (steps : machine.Steps costs last)
    (stays : machine.StaysBelow bound costs.length)
    (room : bound.toNat + 43 < 2 ^ 64) :
    machine.cpu.cycles.toNat + totalCost costs ≤
      max machine.cpu.cycles.toNat (bound.toNat + 43) := by
  induction steps with
  | none => exact Nat.le_max_left _ _
  | next stepped _ inductionHypothesis =>
      have below := UInt64.lt_iff_toNat_lt.mp stays.head
      obtain ⟨⟨-, -, atMost⟩, -⟩ := step_cost stepped
      have counted := toNat_step_cycles stepped (by omega)
      have totalLater := inductionHypothesis (stays.tail stepped)
      rw [totalCost_cons]
      omega

/-- Steps below a bound lead to where the last of them comes to an end. -/
theorem ends
    (steps : machine.Steps costs last)
    (stays : machine.StaysBelow bound costs.length)
    (atLast : Ends bound last [] final fault) :
    Ends bound machine costs final fault := by
  induction steps with
  | none => exact atLast
  | next stepped _ inductionHypothesis =>
      exact .stepped stays.head stepped
        (inductionHypothesis (stays.tail stepped) atLast)

end Steps

/-- A run that was allowed more steps has come to an end. -/
theorem Stops.ends
    {more : Nat}
    (stops : Stops bound last more)
    (unspent : 0 < more) :
    ∃ final fault,
      Ends bound last [] final fault ∧ begun [] fault ≤ more := by
  cases stops with
  | spent => cases unspent
  | reached notBelow => exact ⟨last, none, .reached notBelow, Nat.zero_le _⟩
  | failed below failed => exact ⟨_, _, .failed below failed, unspent⟩

end Machine

namespace Options

/--
The cycles that a run may use up, if they are bounded.  A run without any bound lasts one
frame.
-/
def cycleLimit? (options : Options) : Option UInt64 :=
  match options.steps, options.cycles with
  | _, some cycles => some cycles
  | none, none => some 70224
  | some _, none => none

/-- So many steps, or a count of so many cycles, use up what the run may use. -/
def Exhausted
    (options : Options)
    (steps : Nat)
    (cycles : UInt64) :
    Prop :=
  (∃ bound, options.steps = some bound ∧ bound.toNat ≤ steps) ∨
    ∃ limit, options.cycleLimit? = some limit ∧ limit ≤ cycles

/-- The lines of the trace, if one is wanted: the state after each of the steps. -/
def traceOf
    (options : Options)
    (log : List CompletedStep) :
    List String :=
  if options.trace then log.map (·.left.cpu.snapshot) else []

@[simp] theorem traceOf_append
    (options : Options)
    (earlier later : List CompletedStep) :
    options.traceOf (earlier ++ later) =
      options.traceOf earlier ++ options.traceOf later := by
  unfold traceOf
  cases options.trace with
  | false => rfl
  | true => exact List.map_append

variable
  {options : Options}
  {bound limit cycles : UInt64}
  {taken : Nat}

theorem stepBudget_of_some (bounded : options.steps = some bound) :
    options.stepBudget = bound := by
  simp [stepBudget, bounded]

theorem stepBudget_of_none (unbounded : options.steps = none) :
    options.stepBudget = greatestCount := by
  simp [stepBudget, unbounded]

/-- A limit of the cycles is what the run is bounded by. -/
theorem cycleBudget_of_some (limited : options.cycleLimit? = some limit) :
    options.cycleBudget = limit := by
  rcases options with ⟨path, steps, cycles, trace, input⟩
  cases steps <;> cases cycles <;> cases limited <;> rfl

/-- Without a limit the run is bounded by the greatest count. -/
theorem cycleBudget_of_none (unlimited : options.cycleLimit? = none) :
    options.cycleBudget = greatestCount := by
  rcases options with ⟨path, steps, cycles, trace, input⟩
  cases steps <;> cases cycles <;> cases unlimited
  rfl

/-- Within both budgets nothing is used up. -/
theorem not_exhausted
    (fewer : taken < options.stepBudget.toNat)
    (below : cycles < options.cycleBudget) :
    ¬ options.Exhausted taken cycles := by
  rintro (⟨bound, bounded, enough⟩ | ⟨limit, limited, enough⟩)
  · rw [stepBudget_of_some bounded] at fewer
    exact Nat.not_le_of_lt fewer enough
  · rw [cycleBudget_of_some limited] at below
    exact UInt64.not_le.mpr below enough

/-- Only a limit can be reached, since the greatest count is not a multiple of four. -/
theorem exhausted_of_reached
    (fours : 4 ∣ cycles.toNat)
    (reached : ¬ cycles < options.cycleBudget) :
    options.Exhausted taken cycles := by
  rw [UInt64.not_lt] at reached
  cases limited : options.cycleLimit? with
  | none =>
      rw [cycleBudget_of_none limited, UInt64.le_iff_toNat_le,
        toNat_greatestCount] at reached
      have inClock := cycles.toNat_lt
      omega
  | some limit =>
      rw [cycleBudget_of_some limited] at reached
      exact .inr ⟨limit, limited, reached⟩

/-- Where steps stay within both budgets, no fewer of them use up what the run may use. -/
theorem length_le_of_staysBelow
    {start other : Machine}
    {costs : List UInt64}
    {count : Nat}
    (stays : start.StaysBelow options.cycleBudget count)
    (allowed : count ≤ options.stepBudget.toNat)
    (steps : start.Steps costs other)
    (exhausted : options.Exhausted costs.length other.cpu.cycles) :
    count ≤ costs.length := by
  apply Nat.le_of_not_lt
  intro fewer
  exact not_exhausted (Nat.lt_of_lt_of_le fewer allowed)
    (stays costs other steps fewer) exhausted

end Options

/-- All that is told of a write is that it is ignored. -/
theorem Peripherals.eq_ignoredWrite
    {address : UInt16}
    {value : UInt8}
    {notice : Notice}
    (told : noticeOfWrite? address value = some notice) :
    notice = .ignoredWrite address value := by
  unfold noticeOfWrite? at told
  split at told
  · exact (Option.some.inj told).symm
  · exact (Option.some.inj told).symm
  · cases told

/-- What is told of an event is no error. -/
theorem Event.not_shownAt_error
    {event : Event}
    {notice : Notice}
    (told : event.notice? = some notice) :
    notice.detail.shownAt .error = false := by
  cases event with
  | instruction address opcode cpu => cases told; rfl
  | fetch address => cases told
  | read address => cases told
  | write address value =>
      rw [notice?, Bus.noticeOfWrite?] at told
      split at told
      · rw [Peripherals.eq_ignoredWrite told]; rfl
      · rw [Peripherals.eq_ignoredWrite told]; rfl
      · cases told
  | stop address => cases told; rfl
  | catchUp cycles => cases told

/-- A reader of errors alone sees nothing of what a step tells. -/
theorem Execution.seenAt_error_notices (execution : Execution) :
    Notice.seenAt .error execution.notices = [] := by
  refine List.filter_eq_nil_iff.mpr fun notice member => ?_
  obtain ⟨event, -, told⟩ := List.mem_filterMap.mp member
  rw [Event.not_shownAt_error told]
  exact Bool.false_ne_true

namespace Runner

open Machine

/-- The run that a report is about. -/
def loop
    (asked : Detail)
    (options : Options)
    (cartridge : Cartridge) :
    Run Record :=
  (machineFor options cartridge).runWhile options.cycleBudget
    (observer asked options.trace) options.stepBudget.toNat
    (.start asked cartridge)

/-- The notices of a run, whatever their detail, up to the steps of a log. -/
def noticesTo
    (cartridge : Cartridge)
    (log : List CompletedStep) :
    List Notice :=
  [startNotice, cartridge.loadNotice] ++ noticesOf log

theorem noticesTo_append
    (cartridge : Cartridge)
    (earlier later : List CompletedStep) :
    noticesTo cartridge (earlier ++ later) =
      noticesTo cartridge earlier ++ noticesOf later := by
  rw [noticesTo, noticesOf_append, ← List.append_assoc, noticesTo]

/-- The record of a run after the steps of a log. -/
def recordOf
    (asked : Detail)
    (options : Options)
    (cartridge : Cartridge)
    (log : List CompletedStep) :
    Record where
  steps := log.length
  trace := (options.traceOf log).reverse
  notices := (Notice.seenAt asked (noticesTo cartridge log)).reverse

/--
A run without a bound on its steps has taken as many as can be counted.  By then the
clock has been carried round.
-/
def Outlasts
    (options : Options)
    (log : List CompletedStep) :
    Prop :=
  options.steps = none ∧
    log.length = 2 ^ 64 - 1 ∧
    2 ^ 64 ≤ totalCost (costsOf log)

/-- After these steps a run has used up what it may use, and comes to its end. -/
structure Succeeds
    (asked : Detail)
    (options : Options)
    (cartridge : Cartridge)
    (report : Report)
    (log : List CompletedStep)
    (last : Machine) :
    Prop where
  usedUp :
    options.Exhausted log.length last.cpu.cycles ∨
      Outlasts options log
  left : (loop asked options cartridge).machine = last
  unfailed : (loop asked options cartridge).fault = none
  output : report.output = options.traceOf log ++ [last.cpu.snapshot]
  notices :
    report.notices =
      Notice.seenAt asked
        (noticesTo cartridge log ++
          [ranNotice log.length last.cpu.cycles])
  errors : report.errors = []
  status : report.status = 0

/-- After these steps a run comes to a step that fails, with something left to use. -/
structure Fails
    (asked : Detail)
    (options : Options)
    (cartridge : Cartridge)
    (report : Report)
    (log : List CompletedStep)
    (last : Machine)
    (fault : Fault)
    (execution : Execution) :
    Prop where
  notUsedUp : ¬ options.Exhausted log.length last.cpu.cycles
  fails : last.step = .error fault execution
  left : (loop asked options cartridge).machine = execution.toMachine
  failed : (loop asked options cartridge).fault = some fault
  output : report.output = options.traceOf log
  notices :
    report.notices =
      Notice.seenAt asked
        (noticesTo cartridge log ++ execution.notices ++
          [stoppedNotice log.length fault])
  errors : report.errors = [execution.cpu.snapshot]
  status : report.status = 1

variable
  {asked : Detail}
  {options : Options}
  {cartridge : Cartridge}
  {report : Report}
  {log : List CompletedStep}
  {last : Machine}
  {cost : UInt64}
  {fault : Fault}
  {execution : Execution}
  {limit : UInt64}
  {more : Nat}

/-- A completed step adds its notices, one to the count and, if wanted, a line. -/
theorem observer_of_ok :
    observer asked options.trace (.ok cost execution)
        (recordOf asked options cartridge log) =
      recordOf asked options cartridge (log ++ [⟨cost, execution⟩]) := by
  have line :
      (if options.trace then
          execution.cpu.snapshot :: (options.traceOf log).reverse
        else
          (options.traceOf log).reverse) =
        (options.traceOf (log ++ [⟨cost, execution⟩])).reverse := by
    rw [Options.traceOf_append, List.reverse_append]
    unfold Options.traceOf
    cases options.trace <;> rfl
  have told : noticesOf [⟨cost, execution⟩] = execution.notices :=
    List.append_nil _
  simp [observer, recordOf, Record.addNotices, Record.addStep,
    Outcome.execution, line, noticesTo_append, told]

/-- A step that fails adds its notices only. -/
theorem observer_of_error (record : Record) :
    observer asked options.trace (.error fault execution) record =
      record.addNotices asked execution.notices :=
  rfl

/-- The observer of a run makes the record of its steps. -/
theorem observing_observer (rest : List CompletedStep) :
    observing (observer asked options.trace) rest
        (recordOf asked options cartridge log) =
      recordOf asked options cartridge (log ++ rest) := by
  induction rest generalizing log with
  | nil => rw [List.append_nil]; rfl
  | cons step rest inductionHypothesis =>
      rw [observing, List.foldl_cons, observer_of_ok,
        List.append_cons log step rest]
      exact inductionHypothesis

theorem start_eq_recordOf :
    Record.start asked cartridge = recordOf asked options cartridge [] := by
  simp [Record.start, recordOf, noticesTo, noticesOf, Options.traceOf]

/-- The report of a run that stops without a fault. -/
theorem report_of_unfailed
    (ran :
      loop asked options cartridge =
        ⟨last, none, recordOf asked options cartridge log⟩) :
    runCartridge asked options cartridge =
      { succeeded := true
        output := options.traceOf log ++ [last.cpu.snapshot]
        notices :=
          Notice.seenAt asked
            (noticesTo cartridge log ++
              [ranNotice log.length last.cpu.cycles])
        errors := [] } := by
  unfold loop at ran
  simp [runCartridge, ran, recordOf, Record.addNotices]

/-- The report of a run that a fault has ended. -/
theorem report_of_failed
    (ran :
      loop asked options cartridge =
        ⟨execution.toMachine, some fault,
          (recordOf asked options cartridge log).addNotices asked
            execution.notices⟩) :
    runCartridge asked options cartridge =
      { succeeded := false
        output := options.traceOf log
        notices :=
          Notice.seenAt asked
            (noticesTo cartridge log ++ execution.notices ++
              [stoppedNotice log.length fault])
        errors := [execution.cpu.snapshot] } := by
  unfold loop at ran
  simp [runCartridge, ran, recordOf, Record.addNotices]

/-- Such a run succeeds, if it has used up what it may use. -/
theorem succeeds_of_ran
    (usedUp :
      options.Exhausted log.length last.cpu.cycles ∨
        Outlasts options log)
    (ran :
      loop asked options cartridge =
        ⟨last, none, recordOf asked options cartridge log⟩) :
    Succeeds asked options cartridge
      (runCartridge asked options cartridge) log last := by
  rw [report_of_unfailed ran]
  exact ⟨usedUp, congrArg Run.machine ran, congrArg Run.fault ran,
    rfl, rfl, rfl, rfl⟩

/-- Such a run fails. -/
theorem fails_of_ran
    (notUsedUp : ¬ options.Exhausted log.length last.cpu.cycles)
    (failed : last.step = .error fault execution)
    (ran :
      loop asked options cartridge =
        ⟨execution.toMachine, some fault,
          (recordOf asked options cartridge log).addNotices asked
            execution.notices⟩) :
    Fails asked options cartridge
      (runCartridge asked options cartridge) log last fault
      execution := by
  rw [report_of_failed ran]
  exact ⟨notUsedUp, failed, congrArg Run.machine ran,
    congrArg Run.fault ran, rfl, rfl, rfl, rfl⟩

/-- Up to its end the notices of a run are hidden from a reader of errors alone. -/
theorem seenAt_error_noticesTo
    (cartridge : Cartridge)
    (log : List CompletedStep) :
    Notice.seenAt .error (noticesTo cartridge log) = [] := by
  rw [noticesTo, Notice.seenAt_append]
  induction log with
  | nil => rfl
  | cons step rest inductionHypothesis =>
      have told :
          noticesOf (step :: rest) = step.left.notices ++ noticesOf rest :=
        List.flatMap_cons
      rw [told, Notice.seenAt_append, Execution.seenAt_error_notices]
      exact inductionHypothesis

/-- A reader of errors alone sees nothing of a run that succeeds. -/
theorem Succeeds.notices_eq_nil
    (succeeds : Succeeds .error options cartridge report log last) :
    report.notices = [] := by
  rw [succeeds.notices, Notice.seenAt_append, seenAt_error_noticesTo]
  rfl

/-- Of a run that fails, a reader of errors alone sees the notice of its end. -/
theorem Fails.notices_eq_singleton
    (fails :
      Fails .error options cartridge report log last fault execution) :
    report.notices = [stoppedNotice log.length fault] := by
  rw [fails.notices, Notice.seenAt_append, Notice.seenAt_append,
    seenAt_error_noticesTo, Execution.seenAt_error_notices]
  rfl

/-- The machine of a run starts with the clock at its beginning. -/
theorem machineFor_cycles :
    (machineFor options cartridge).cpu.cycles.toNat = 0 :=
  rfl

section Stopped

variable
  (logs : (machineFor options cartridge).Logs log last)
  (stays :
    (machineFor options cartridge).StaysBelow options.cycleBudget log.length)
include logs

theorem usedUp_of_spent
    (spent : log.length = options.stepBudget.toNat) :
    options.Exhausted log.length last.cpu.cycles ∨
      Outlasts options log := by
  cases bounded : options.steps with
  | some bound =>
      rw [Options.stepBudget_of_some bounded] at spent
      exact .inl (.inl ⟨bound, bounded, Nat.le_of_eq spent.symm⟩)
  | none =>
      rw [Options.stepBudget_of_none bounded, toNat_greatestCount] at spent
      have atLeast := logs.steps.four_mul_length_le
      rw [length_costsOf] at atLeast
      exact .inr ⟨bounded, spent, by omega⟩

theorem usedUp_of_reached
    (reached : ¬ last.cpu.cycles < options.cycleBudget) :
    options.Exhausted log.length last.cpu.cycles := by
  have fours : 4 ∣ last.cpu.cycles.toNat :=
    logs.steps.four_dvd_cycles (Nat.dvd_zero 4)
  exact Options.exhausted_of_reached fours reached

include stays

/-- The run is what is left of it after the steps of its log. -/
theorem loop_eq (counted : log.length + more = options.stepBudget.toNat) :
    loop asked options cartridge =
      last.runWhile options.cycleBudget (observer asked options.trace) more
        (recordOf asked options cartridge log) := by
  have ran :=
    logs.runWhile_eq stays (observer asked options.trace)
      (recordOf asked options cartridge []) more
  rw [counted, observing_observer, List.nil_append] at ran
  rw [← ran, loop, start_eq_recordOf]

/-- Where a run stops, it has succeeded or failed. -/
theorem succeeds_or_fails
    (counted : log.length + more = options.stepBudget.toNat)
    (stops : Stops options.cycleBudget last more) :
    Succeeds asked options cartridge
        (runCartridge asked options cartridge) log last ∨
      ∃ fault execution,
        Fails asked options cartridge
          (runCartridge asked options cartridge) log last fault
          execution := by
  have ran : loop asked options cartridge = _ :=
    loop_eq logs stays counted
  cases stops with
  | spent =>
      exact .inl (succeeds_of_ran (usedUp_of_spent logs counted) ran)
  | reached notBelow =>
      rw [runWhile_of_reached notBelow] at ran
      exact .inl (succeeds_of_ran (.inl (usedUp_of_reached logs notBelow)) ran)
  | failed below failed =>
      rw [runWhile_of_failed below failed, observer_of_error] at ran
      have fewer : log.length < options.stepBudget.toNat := by
        omega
      have notUsedUp := Options.not_exhausted fewer below
      exact .inr ⟨_, _, fails_of_ran notUsedUp failed ran⟩

/--
Within the clock, a run that has no bound on its steps ends as a run for so many cycles.
-/
theorem runFor_eq_loop
    (counted : log.length + more = options.stepBudget.toNat)
    (stops : Stops options.cycleBudget last more)
    (unbounded : options.steps = none)
    (limited : options.cycleLimit? = some limit)
    (inRange : totalCost (costsOf log) < 2 ^ 64)
    (observe : Outcome UInt64 → σ → σ)
    (observed : σ) :
    let ran :=
      (machineFor options cartridge).runFor observe limit observed
    ran.machine = (loop asked options cartridge).machine ∧
      ran.fault = (loop asked options cartridge).fault := by
  have unspent : 0 < more := by
    have atLeast := logs.steps.four_mul_length_le
    rw [length_costsOf] at atLeast
    rw [Options.stepBudget_of_none unbounded, toNat_greatestCount] at counted
    omega
  obtain ⟨final, fault, atLast, enough⟩ := stops.ends unspent
  have ends := logs.steps.ends (by rwa [length_costsOf]) atLast
  have begunEnough :
      begun (costsOf log) fault ≤ options.stepBudget.toNat := by
    simp only [begun, List.length_nil, length_costsOf] at enough ⊢
    omega
  have isTarget :
      options.cycleBudget =
        (machineFor options cartridge).target limit := by
    rw [Options.cycleBudget_of_some limited, ← UInt64.toNat_inj,
      toNat_target, machineFor_cycles]
    have inClock := limit.toNat_lt
    omega
  have looped : loop asked options cartridge = _ :=
    ends.runWhile_eq (observer asked options.trace) _ begunEnough
  rw [isTarget] at ends
  rw [looped, ends.runFor_eq (by rwa [machineFor_cycles, Nat.zero_add])]
  exact ⟨rfl, rfl⟩

end Stopped

/--
A run from the command line takes the fewest steps that use up one of its budgets, and
then writes its last state; or all steps before the first that fails, and then reports
the state which that step has left.  A trace has the state after each step that did not
fail, and the notices tell of all steps as far as their reader asks for it.  Without a
bound on steps, a run for so many cycles leaves the same machine, with the same fault,
unless the clock is carried round; a limit that leaves room for one step more rules that
out.  The command itself runs for a reader of errors alone.
-/
theorem run_keeps_to_budget
    (asked : Detail)
    (options : Options)
    {image : Image}
    {cartridge : Cartridge}
    (loaded : Cartridge.load image = .ok cartridge) :
    let start := (Machine.powerOn cartridge).press options.input
    let loop := loop asked options cartridge
    let report := runAt asked options image
    ∃ log last,
      start.Logs log last ∧
        (∀ costs other,
          start.Steps costs other →
            options.Exhausted costs.length other.cpu.cycles →
              log.length ≤ costs.length) ∧
        (Succeeds asked options cartridge report log last ∨
          ∃ fault execution,
            Fails asked options cartridge report log last fault execution) ∧
        ∀ limit,
          options.cycleLimit? = some limit →
            (limit.toNat + 43 < 2 ^ 64 →
              totalCost (costsOf log) < 2 ^ 64) ∧
              (options.steps = none →
                totalCost (costsOf log) < 2 ^ 64 →
                  ∀ {σ : Type}
                    (observe : Outcome UInt64 → σ → σ)
                    (observed : σ),
                    let ran := start.runFor observe limit observed
                    ran.machine = loop.machine ∧
                      ran.fault = loop.fault) := by
  intro start loop report
  have isReport : report = runCartridge asked options cartridge := by
    change runAt asked options image = _
    rw [runAt, loaded]
  obtain ⟨log, last, more, logs, stays, counted, stops⟩ :=
    exists_stop start options.cycleBudget options.stepBudget.toNat
  refine ⟨log, last, logs, ?fewest, ?ended, ?agrees⟩
  case fewest =>
    intro costs other steps exhausted
    exact Options.length_le_of_staysBelow stays (by omega) steps exhausted
  case ended =>
    rw [isReport]
    exact succeeds_or_fails logs stays counted stops
  case agrees =>
    intro limit limited
    constructor
    · intro room
      rw [← Options.cycleBudget_of_some limited] at room
      have total := logs.steps.total_le (by rwa [length_costsOf]) room
      have started : start.cpu.cycles.toNat = 0 := machineFor_cycles
      omega
    · intro unbounded inRange σ observe observed
      exact runFor_eq_loop logs stays counted stops unbounded limited
        inRange observe observed

/-- An idle instruction where a program begins takes four cycles. -/
theorem step_machineFor_of_idle
    (found : (machineFor options cartridge).bus.read 0x0100 = .ok 0x00) :
    ∃ execution, (machineFor options cartridge).step = .ok 4 execution := by
  have executes :=
    @executeOrIdle_of_found (machineFor options cartridge) _ _ _ _
      rfl found rfl rfl
  have stepped :=
    step_of_unserved executes rfl
      (Execution.serving_of_disabled rfl rfl) rfl
  have taken : (0 + 4 : UInt64) - 0 = 4 := rfl
  exact ⟨_, stepped.trans (congrArg (EStateM.Result.ok · _) taken)⟩

/-- A traced run for three cycles, with one button held down. -/
def threeCycles : Options where
  path := "game.gb"
  steps := none
  cycles := some 3
  trace := true
  input := 0x01

/-- Three cycles are used up by one idle instruction, so that one line is traced. -/
theorem run_keeps_to_budget_threeCycles :
    ∃ cartridge execution,
      Cartridge.load Cartridge.seventyTwoBanks = .ok cartridge ∧
        ((Machine.powerOn cartridge).press 0x01).step =
          .ok 4 execution ∧
        (run threeCycles Cartridge.seventyTwoBanks).output =
          [execution.cpu.snapshot, execution.cpu.snapshot] ∧
        (run threeCycles Cartridge.seventyTwoBanks).notices = [] ∧
        (run threeCycles Cartridge.seventyTwoBanks).errors = [] ∧
        (run threeCycles Cartridge.seventyTwoBanks).status = 0 := by
  have loaded := Cartridge.load_seventyTwoBanks
  have idle : Header.byte Cartridge.seventyTwoBanks 0x0100 = 0x00 := by
    rw [Cartridge.byte_seventyTwoBanks]
    decide +kernel
  obtain ⟨execution, stepped⟩ :=
    @step_machineFor_of_idle threeCycles
      (.ofChecked Cartridge.seventyTwoBanks 72 ⟨4, 0x8000⟩
        (.mbc1 .powerOn))
      (congrArg Except.ok idle)
  refine ⟨_, execution, loaded, stepped, ?_⟩
  obtain ⟨log, last, logs, fewest, ended, -⟩ :=
    run_keeps_to_budget .error threeCycles loaded
  have usedUp : threeCycles.Exhausted 1 execution.cpu.cycles := by
    refine .inr ⟨3, rfl, ?_⟩
    rw [(step_cost stepped).2]
    decide
  have few : log.length ≤ 1 := fewest [4] _ (.next stepped (.none _)) usedUp
  cases logs with
  | none =>
      rcases ended with succeeds | ⟨fault, broken, fails⟩
      · rcases succeeds.usedUp with
          (⟨bound, bounded, -⟩ | ⟨limit, limited, enough⟩) | ⟨-, long, -⟩
        · cases bounded
        · cases limited
          exact absurd enough (by decide)
        · cases long
      · cases fails.fails.symm.trans stepped
  | next first rest =>
      cases first.symm.trans stepped
      cases rest with
      | none =>
          rcases ended with succeeds | ⟨fault, broken, fails⟩
          · exact ⟨succeeds.output, succeeds.notices_eq_nil, succeeds.errors,
              succeeds.status⟩
          · exact absurd usedUp fails.notUsedUp
      | next second rest => exact absurd few (by simp)

end Runner

end Dmg
