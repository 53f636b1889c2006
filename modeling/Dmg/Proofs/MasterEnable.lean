import Dmg.Proofs.Dispatch
import Dmg.Proofs.OpcodeMap

namespace Dmg

/-!
# When the master enable changes

Two events change the interrupt master enable.  A request that an instruction made takes
effect at the end of the next step, unless that step makes a request of its own or an
interrupt was dispatched in between; and a dispatch clears it.  Over a run the master
enable has the value that the latest of these events gave it.
-/

namespace Cpu

variable
  {cpu : Cpu}
  {enable : Bool}

theorem latchIme_of_none (waiting : cpu.pendingIme = none) :
    cpu.latchIme = cpu := by
  unfold latchIme
  rw [waiting]

/-- A change whose delay is over is applied. -/
theorem latchIme_of_due (waiting : cpu.pendingIme = some ⟨enable, 0⟩) :
    cpu.latchIme = { cpu with ime := enable, pendingIme := none } := by
  unfold latchIme
  rw [waiting]
  rfl

/-- A change that was just requested has the next step to wait for. -/
theorem latchIme_of_requested
    (waiting : cpu.pendingIme = some ⟨enable, 1⟩) :
    cpu.latchIme = { cpu with pendingIme := some ⟨enable, 0⟩ } := by
  unfold latchIme
  rw [waiting]
  rfl

end Cpu

namespace Machine

/-- The change of the master enable that the next step requests; an idle slot requests none. -/
def imeRequest? (machine : Machine) : Option Bool :=
  if machine.cpu.halted then
    none
  else
    machine.nextInstruction?.bind Instruction.imeRequest?

/-- The next step succeeds and ends with the dispatch of an interrupt. -/
def Dispatches (machine : Machine) : Prop :=
  ∃ cost executed middle served final number,
    machine.Stages cost executed middle served final ∧
      Execution.Dispatched number middle served

/-- A change that is pending does not wait for another step. -/
def Settled (machine : Machine) : Prop :=
  ∀ pending, machine.cpu.pendingIme = some pending → pending.delay = 0

variable
  {machine : Machine}
  {cost : Nat}
  {executed middle served final : Execution}

/-- What is executed leaves the master enable alone. -/
theorem ime_of_moves
    {start final : Execution}
    (moves : Moves start final) :
    final.cpu.ime = start.cpu.ime := by
  induction moves with
  | refl => rfl
  | tail _ move inductionHypothesis =>
      cases move with
      | registers _ _ sameIme => exact sameIme.trans inductionHypothesis
      | note => exact inductionHypothesis
      | store => exact inductionHypothesis

/-- A request that is made replaces what was pending. -/
theorem executeOrIdle_pendingIme :
    Action.Ensures .executeOrIdle (.start machine)
      (fun _ executed =>
        executed.cpu.pendingIme =
          (machine.imeRequest?.map (PendingIme.mk · 1)).or
            machine.cpu.pendingIme)
      (fun _ _ => True) := by
  unfold Action.executeOrIdle
  rw [Action.ensures_bind, Action.ensures_cpu, Action.ensures_ite]
  split
  case isTrue halted =>
    have idle : machine.imeRequest? = none := if_pos halted
    rw [Action.ensures_pure, idle]
    rfl
  case isFalse awake =>
    have running : ¬ machine.cpu.halted = true := awake
    have reads := Action.executeNext_reads (.start machine)
    refine reads.mono ?_ fun _ _ _ => trivial
    rintro _ executed ⟨-, -, instruction, decoded, left⟩
    have requested : machine.imeRequest? = instruction.imeRequest? := by
      have next : machine.nextInstruction? = some instruction := decoded
      rw [imeRequest?, if_neg running, next, Option.bind_some]
    rw [left, requested, Instruction.pendingAfter]
    cases instruction.imeRequest? <;> rfl

namespace Stages

variable (stages : machine.Stages cost executed middle served final)
include stages

/--
After the latching, the request of the step is all that is pending, and what was pending
before has taken effect unless the step made a request.
-/
theorem middle_enable (settled : machine.Settled) :
    middle.cpu.pendingIme =
        machine.imeRequest?.map (PendingIme.mk · 0) ∧
      middle.cpu.ime =
        match machine.imeRequest?, machine.cpu.pendingIme with
        | none, some pending => pending.enable
        | _, _ => machine.cpu.ime := by
  have left := executeOrIdle_pendingIme.of_ok stages.executes
  have ime : executed.cpu.ime = machine.cpu.ime :=
    ime_of_moves stages.moves
  obtain rfl := stages.middle_eq
  let spent := executed.spending (UInt64.ofNat cost)
  change spent.cpu.latchIme.pendingIme = _ ∧ spent.cpu.latchIme.ime = _
  cases requested : machine.imeRequest? with
  | some enable =>
      rw [requested] at left
      have waiting : spent.cpu.pendingIme = some ⟨enable, 1⟩ := left
      rw [Cpu.latchIme_of_requested waiting]
      exact ⟨rfl, ime⟩
  | none =>
      rw [requested] at left
      cases before : machine.cpu.pendingIme with
      | none =>
          rw [before] at left
          have waiting : spent.cpu.pendingIme = none := left
          rw [Cpu.latchIme_of_none waiting]
          exact ⟨waiting, ime⟩
      | some pending =>
          obtain ⟨enable, delay⟩ := pending
          obtain rfl : delay = 0 := settled _ before
          rw [before] at left
          have waiting : spent.cpu.pendingIme = some ⟨enable, 0⟩ := left
          rw [Cpu.latchIme_of_due waiting]
          exact ⟨rfl, rfl⟩

/-- The stages of a step are the only ones, so what they end with tells if it dispatches. -/
theorem dispatches_iff :
    machine.Dispatches ↔
      ∃ number, Execution.Dispatched number middle served := by
  constructor
  · rintro ⟨_, _, _, _, _, number, others, dispatched⟩
    cases stages.executes.symm.trans others.executes
    cases stages.advances.symm.trans others.advances
    cases stages.serves.symm.trans others.serves
    exact ⟨number, dispatched⟩
  · rintro ⟨number, dispatched⟩
    exact ⟨cost, executed, middle, served, final, number, stages,
      dispatched⟩

/-- A dispatch disables interrupts and drops what is pending. -/
theorem final_enable_of_dispatches (dispatches : machine.Dispatches) :
    final.cpu.ime = false ∧ final.cpu.pendingIme = none := by
  obtain ⟨number, dispatched⟩ := stages.dispatches_iff.mp dispatches
  rw [stages.final_cpu, dispatched.cpu]
  exact ⟨rfl, rfl⟩

/-- Without a dispatch the step ends as it was latched. -/
theorem final_enable_of_not_dispatches
    (notDispatches : ¬ machine.Dispatches) :
    final.cpu.ime = middle.cpu.ime ∧
      final.cpu.pendingIme = middle.cpu.pendingIme := by
  have notDispatched := mt stages.dispatches_iff.mpr notDispatches
  rw [stages.final_cpu, stages.service.eq_of_not_dispatched notDispatched]
  exact ⟨rfl, rfl⟩

/-- Between steps nothing waits for longer than the next step. -/
theorem final_settled (settled : machine.Settled) :
    final.toMachine.Settled := by
  intro pending waiting
  by_cases dispatches : machine.Dispatches
  · rw [(stages.final_enable_of_dispatches dispatches).2] at waiting
    cases waiting
  · rw [(stages.final_enable_of_not_dispatches dispatches).2,
      (stages.middle_enable settled).1] at waiting
    obtain ⟨enable, -, rfl⟩ := Option.map_eq_some_iff.mp waiting
    rfl

end Stages

end Machine

/--
A course of machines, one before every step: it begins with the enable as at power-on,
and every step succeeds.  Between the steps anything may be changed from outside, except
the master enable and what is pending for it.
-/
structure Course
    (machines : Nat → Machine)
    (count : Nat) :
    Prop where
  disabled : (machines 0).cpu.ime = Cpu.powerOn.ime
  nothingPending : (machines 0).cpu.pendingIme = Cpu.powerOn.pendingIme
  steps :
    ∀ step, step < count →
      ∃ cycles final,
        (machines step).step = .ok cycles final ∧
          (machines (step + 1)).cpu.ime = final.cpu.ime ∧
          (machines (step + 1)).cpu.pendingIme = final.cpu.pendingIme

/--
A request matures in a step: it was made in the step before, that step dispatched no
interrupt, and the step itself makes no request.
-/
def Matures
    (machines : Nat → Machine)
    (step : Nat)
    (enable : Bool) :
    Prop :=
  ∃ earlier,
    step = earlier + 1 ∧
      (machines earlier).imeRequest? = some enable ∧
      ¬ (machines earlier).Dispatches ∧
      (machines step).imeRequest? = none

/-- The latest event of a step that concerns the master enable gives it this value. -/
inductive Sets
    (machines : Nat → Machine)
    (step : Nat) :
    Bool → Prop where
  | matured
      {enable : Bool}
      (matures : Matures machines step enable)
      (notDispatches : ¬ (machines step).Dispatches) :
      Sets machines step enable
  /-- A dispatch comes after what matures in the same step. -/
  | dispatched
      (dispatches : (machines step).Dispatches) :
      Sets machines step false

namespace Course

variable
  {machines : Nat → Machine}
  {count : Nat}
  (course : Course machines count)
include course

/-- The stages of every step, and how the next machine of the course agrees with them. -/
theorem stages
    {step : Nat}
    (inRange : step < count) :
    ∃ cost executed middle served final,
      (machines step).Stages cost executed middle served final ∧
        (machines (step + 1)).cpu.ime = final.cpu.ime ∧
        (machines (step + 1)).cpu.pendingIme = final.cpu.pendingIme := by
  obtain ⟨cycles, final, stepped, sameIme, samePending⟩ :=
    course.steps step inRange
  obtain ⟨cost, executed, middle, served, stages⟩ :=
    Machine.step_ok_iff.mp ⟨cycles, stepped⟩
  exact ⟨cost, executed, middle, served, final, stages, sameIme,
    samePending⟩

theorem settled
    {n : Nat}
    (reached : n ≤ count) :
    (machines n).Settled := by
  induction n with
  | zero =>
      intro pending waiting
      rw [course.nothingPending] at waiting
      cases waiting
  | succ step inductionHypothesis =>
      obtain ⟨_, _, _, _, final, stages, -, samePending⟩ :=
        course.stages reached
      intro pending waiting
      rw [samePending] at waiting
      exact stages.final_settled (inductionHypothesis (Nat.le_of_lt reached))
        pending waiting

/-- What is pending before a step is what the step before requested and did not drop. -/
theorem pendingIme_eq_some_iff
    {step : Nat}
    (reached : step ≤ count)
    (enable : Bool) :
    (machines step).cpu.pendingIme = some ⟨enable, 0⟩ ↔
      ∃ earlier,
        step = earlier + 1 ∧
          (machines earlier).imeRequest? = some enable ∧
          ¬ (machines earlier).Dispatches := by
  cases step with
  | zero =>
      rw [course.nothingPending]
      constructor
      · intro waiting
        cases waiting
      · rintro ⟨earlier, first, -⟩
        cases first
  | succ earlier =>
      obtain ⟨_, _, _, _, final, stages, -, samePending⟩ :=
        course.stages reached
      have settled := course.settled (Nat.le_of_lt reached)
      rw [samePending]
      constructor
      · intro waiting
        by_cases dispatches : (machines earlier).Dispatches
        · rw [(stages.final_enable_of_dispatches dispatches).2] at waiting
          cases waiting
        · rw [(stages.final_enable_of_not_dispatches dispatches).2,
            (stages.middle_enable settled).1] at waiting
          obtain ⟨_, requested, same⟩ := Option.map_eq_some_iff.mp waiting
          cases same
          exact ⟨earlier, rfl, requested, dispatches⟩
      · rintro ⟨_, same, requested, notDispatches⟩
        cases same
        rw [(stages.final_enable_of_not_dispatches notDispatches).2,
          (stages.middle_enable settled).1, requested]
        rfl

/-- A step in which an event concerns the master enable leaves it as the latest event says. -/
theorem ime_of_sets
    {step : Nat}
    (inRange : step < count)
    {enable : Bool}
    (sets : Sets machines step enable) :
    (machines (step + 1)).cpu.ime = enable := by
  obtain ⟨_, _, _, _, final, stages, sameIme, -⟩ := course.stages inRange
  rw [sameIme]
  cases sets with
  | dispatched dispatches =>
      exact (stages.final_enable_of_dispatches dispatches).1
  | matured matures notDispatches =>
      obtain ⟨earlier, after, requested, kept, noRequest⟩ := matures
      have reached := Nat.le_of_lt inRange
      have waiting :=
        (course.pendingIme_eq_some_iff reached enable).mpr
          ⟨earlier, after, requested, kept⟩
      rw [(stages.final_enable_of_not_dispatches notDispatches).1,
        (stages.middle_enable (course.settled reached)).2, noRequest,
        waiting]

/-- A step without such an event leaves the master enable as it was. -/
theorem ime_of_not_sets
    {step : Nat}
    (inRange : step < count)
    (unset : ∀ enable, ¬ Sets machines step enable) :
    (machines (step + 1)).cpu.ime = (machines step).cpu.ime := by
  obtain ⟨_, _, _, _, final, stages, sameIme, -⟩ := course.stages inRange
  have notDispatches : ¬ (machines step).Dispatches :=
    fun dispatches => unset false (.dispatched dispatches)
  have reached := Nat.le_of_lt inRange
  have settled := course.settled reached
  rw [sameIme, (stages.final_enable_of_not_dispatches notDispatches).1,
    (stages.middle_enable settled).2]
  cases requested : (machines step).imeRequest? with
  | some enable => rfl
  | none =>
      cases waiting : (machines step).cpu.pendingIme with
      | none => rfl
      | some pending =>
          obtain ⟨enable, delay⟩ := pending
          obtain rfl : delay = 0 := settled _ waiting
          obtain ⟨earlier, after, made, kept⟩ :=
            (course.pendingIme_eq_some_iff reached enable).mp waiting
          have matures : Matures machines step enable :=
            ⟨earlier, after, made, kept, requested⟩
          exact absurd (.matured matures notDispatches) (unset enable)

/-- As long as no event concerns the master enable, it keeps its value. -/
theorem ime_of_quiet
    {first n : Nat}
    (inOrder : first ≤ n)
    (reached : n ≤ count)
    (quiet :
      ∀ step, first ≤ step → step < n →
        ∀ enable, ¬ Sets machines step enable) :
    (machines n).cpu.ime = (machines first).cpu.ime := by
  induction n, inOrder using Nat.le_induction with
  | base => rfl
  | succ n inOrder inductionHypothesis =>
      have before :=
        inductionHypothesis (Nat.le_of_lt reached)
          fun step afterFirst below =>
            quiet step afterFirst (Nat.lt_succ_of_lt below)
      have unset := quiet n inOrder (Nat.lt_succ_self n)
      exact (course.ime_of_not_sets reached unset).trans before

/--
On a course from power-on the master enable has, after any number of steps, the value of
the latest event that concerns it, and is clear if there was none.  What is pending
between the steps waits for no other step; a request changes nothing in its own step.
-/
theorem ime_follows_latest_event
    {n : Nat}
    (reached : n ≤ count) :
    ((∀ step, step < n → ∀ enable, ¬ Sets machines step enable) →
        (machines n).cpu.ime = false) ∧
      (∀ step enable, step < n → Sets machines step enable →
        (∀ later, step < later → later < n →
          ∀ other, ¬ Sets machines later other) →
        (machines n).cpu.ime = enable) ∧
      (∀ pending, (machines n).cpu.pendingIme = some pending →
        pending.delay = 0) ∧
      ∀ step, step < n → (machines step).imeRequest? ≠ none →
        ¬ (machines step).Dispatches →
        (machines (step + 1)).cpu.ime = (machines step).cpu.ime := by
  refine ⟨?_, ?_, course.settled reached, ?_⟩
  · intro unset
    exact (course.ime_of_quiet (Nat.zero_le n) reached
      fun step _ => unset step).trans course.disabled
  · intro step enable below sets noneLater
    exact (course.ime_of_quiet below reached noneLater).trans
      (course.ime_of_sets (Nat.lt_of_lt_of_le below reached) sets)
  · intro step below requests notDispatches
    refine course.ime_of_not_sets (Nat.lt_of_lt_of_le below reached) ?_
    rintro enable (⟨matures, -⟩ | dispatches)
    · obtain ⟨earlier, -, -, -, noRequest⟩ := matures
      exact requests noRequest
    · exact notDispatches dispatches

end Course

/-- Nothing is due as long as no source is enabled. -/
theorem Interrupt.due_zero (requests : UInt8) : due requests 0 = 0 := by
  simp [due]

/-- A step with no dispatch and no transfer succeeds if its instruction does. -/
theorem Machine.stages_of_quiet
    {machine : Machine}
    {cost : Nat}
    {executed : Execution}
    (executes : machine.perform .executeOrIdle = .ok cost executed)
    (quiet :
      ¬ ((executed.elapsing cost).cpu.ime = true ∧
        (executed.elapsing cost).due ≠ 0))
    (noTransfer : executed.bus.peripherals.transferPage = 0) :
    ∃ served final,
      machine.Stages cost executed (executed.elapsing cost) served final ∧
        ¬ machine.Dispatches := by
  have service := (executed.elapsing cost).service_serving
  have notDispatched := mt service.dispatched_iff.mp quiet
  have complete :
      (executed.elapsing cost).serving.bus.transfer.fault = none := by
    rw [service.eq_of_not_dispatched notDispatched, Bus.transfer]
    exact congrArg Bus.Transferred.fault (if_pos noTransfer)
  have stages := Machine.Stages.of_complete executes complete
  exact ⟨_, _, stages, mt stages.dispatches_iff.mp notDispatched⟩

/--
A course that enables interrupts: the byte at the last address is first the instruction
that asks for it, then one that does nothing.
-/
def enabling : Nat → Machine
  | 0 =>
      { cpu := { Cpu.powerOn with pc := 0xFFFF }
        bus := { Bus.powerOn .blank with interruptEnable := 0xFB } }
  | 1 =>
      { cpu :=
          { Cpu.powerOn with pc := 0xFFFF, pendingIme := some ⟨true, 0⟩ }
        bus := .powerOn .blank }
  | _ =>
      { cpu := { Cpu.powerOn with ime := true }
        bus := .powerOn .blank }

/-- The request of the first step takes effect in the second. -/
theorem ime_follows_latest_event_enabling :
    Course enabling 2 ∧
      (enabling 0).imeRequest? = some true ∧
      (enabling 1).cpu.ime = false ∧
      (enabling 2).cpu.ime = true := by
  obtain ⟨_, requested, first, firstQuiet⟩ :=
    @Machine.stages_of_quiet (enabling 0) 4 _ rfl
      (fun accepted => Bool.false_ne_true accepted.1) rfl
  obtain ⟨_, matured, second, secondQuiet⟩ :=
    @Machine.stages_of_quiet (enabling 1) 4 _ rfl
      (fun accepted => accepted.2 (Interrupt.due_zero _)) rfl
  have course : Course enabling 2 := by
    refine ⟨rfl, rfl, ?_⟩
    rintro (_ | _ | step) inRange
    · obtain ⟨cycles, stepped⟩ :=
        Machine.step_ok_iff.mpr ⟨_, _, _, _, first⟩
      have left := first.final_enable_of_not_dispatches firstQuiet
      exact ⟨cycles, requested, stepped, left.1.symm, left.2.symm⟩
    · obtain ⟨cycles, stepped⟩ :=
        Machine.step_ok_iff.mpr ⟨_, _, _, _, second⟩
      have left := second.final_enable_of_not_dispatches secondQuiet
      exact ⟨cycles, matured, stepped, left.1.symm, left.2.symm⟩
    · omega
  have sets : Sets enabling 1 true :=
    .matured ⟨0, rfl, rfl, firstQuiet, rfl⟩ secondQuiet
  have followed :=
    (course.ime_follows_latest_event (Nat.le_refl 2)).2.1 1 true
      (Nat.lt_succ_self 1) sets fun later after before => by omega
  exact ⟨course, rfl, rfl, followed⟩

end Dmg
