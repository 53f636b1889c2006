import Dmg.Proofs.StepCost

namespace Dmg

/-!
# The stages of a step

A step that succeeds goes through four stages: an instruction is executed or the
processor idles; the cost elapses, a requested change of the master enable may be
latched and the clock runs; interrupts are served; a transfer is carried out.  The
machine after each stage is fixed by the one before it.
-/

namespace Action

variable {start final : Execution}

/-- An action that ensures one outcome comes to just that. -/
theorem Ensures.run_eq
    {α : Type}
    {action : Action α}
    {outcome : Outcome α}
    (ensured :
      Ensures action start
        (fun result final => outcome = .ok result final)
        (fun fault final => outcome = .error fault final)) :
    action.run start = outcome := by
  unfold Ensures at ensured
  cases ran : action.run start with
  | ok result final =>
      rw [ran] at ensured
      exact ensured.symm
  | error fault final =>
      rw [ran] at ensured
      exact ensured.symm

theorem run_serveInterrupts :
    serveInterrupts.run start = .ok () start.serving :=
  Ensures.run_eq (ensures_serveInterrupts.mpr rfl)

theorem run_advance
    {cost : Nat}
    {executed : Execution}
    (executes : executeOrIdle.run start = .ok cost executed) :
    advance.run start = .ok () (executed.elapsing cost) := by
  apply Ensures.run_eq
  rw [ensures_advance, Ensures, executes]

theorem run_transfer
    (complete : start.bus.transfer.fault = none) :
    transfer.run start = .ok () start.transferring := by
  apply Ensures.run_eq
  rw [ensures_transfer, complete]

end Action

/-- What a successful step of a machine leaves after each of its stages. -/
structure Machine.Stages
    (machine : Machine)
    (cost : Nat)
    (executed middle served final : Execution) :
    Prop where
  /-- An instruction was executed, or the processor idled. -/
  executes : machine.perform .executeOrIdle = .ok cost executed
  /-- The cost elapsed, the master enable was latched, and the clock ran. -/
  advances : machine.perform .advance = .ok () middle
  serves : Action.serveInterrupts.run middle = .ok () served
  transfers : Action.transfer.run served = .ok () final

namespace Machine

variable
  {machine : Machine}
  {executed middle served final : Execution}

namespace Stages

/-- An instruction that succeeds is followed by the other stages, up to the transfer. -/
theorem of_complete
    {cost : Nat}
    (executes : machine.perform .executeOrIdle = .ok cost executed)
    (complete :
      (executed.elapsing cost).serving.bus.transfer.fault = none) :
    machine.Stages cost executed (executed.elapsing cost)
      (executed.elapsing cost).serving
      (executed.elapsing cost).serving.transferring where
  executes := executes
  advances := Action.run_advance executes
  serves := Action.run_serveInterrupts
  transfers := Action.run_transfer complete

variable
  {cost : Nat}
  (stages : machine.Stages cost executed middle served final)
include stages

theorem middle_eq : middle = executed.elapsing cost := by
  have advanced := Action.run_advance stages.executes
  cases stages.advances.symm.trans advanced
  rfl

theorem served_eq : served = middle.serving := by
  cases stages.serves.symm.trans Action.run_serveInterrupts
  rfl

/-- The transfer that ends a successful step is not cut short. -/
theorem complete : served.bus.transfer.fault = none := by
  cases cut : served.bus.transfer.fault with
  | none => rfl
  | some fault =>
      have failed :
          Action.Ensures .transfer served
            (fun _ _ => False) (fun _ _ => True) := by
        rw [Action.ensures_transfer, cut]
        trivial
      exact (failed.of_ok stages.transfers).elim

theorem final_eq : final = served.transferring := by
  have transferred := Action.run_transfer stages.complete
  cases stages.transfers.symm.trans transferred
  rfl

/-- What was executed has moved the machine, at a cost that instructions have. -/
theorem moves : Moves (.start machine) executed :=
  ((Action.executeOrIdle_moving (.start machine)).of_ok stages.executes).1

end Stages

/-- A step fails with what is executed. -/
theorem step_of_not_executes
    {fault : Fault}
    (fails : machine.perform .executeOrIdle = .error fault final) :
    machine.step = .error fault final := by
  have ran : Action.executeOrIdle.run (.start machine) = _ := fails
  refine @Action.Ensures.run_eq _ _ .step _ ?_
  rw [Action.ensures_step, Action.Ensures, ran]

/-- What is executed is followed by the other stages, and only the transfer can fail. -/
theorem step_of_executes
    {cost : Nat}
    (executes : machine.perform .executeOrIdle = .ok cost executed) :
    machine.step =
      match (executed.elapsing cost).settlingFault? with
      | none =>
          .ok
            ((executed.elapsing cost).settling.cpu.cycles -
              machine.cpu.cycles)
            (executed.elapsing cost).settling
      | some fault => .error fault (executed.elapsing cost).settling := by
  have ran : Action.executeOrIdle.run (.start machine) = _ := executes
  refine @Action.Ensures.run_eq _ _ .step _ ?_
  rw [Action.ensures_step, Action.Ensures, ran]
  dsimp only
  cases (executed.elapsing cost).settlingFault? <;> rfl

/-- A step that goes through all stages returns what has been counted. -/
theorem Stages.step_eq
    {cost : Nat}
    (stages : machine.Stages cost executed middle served final) :
    machine.step = .ok (final.cpu.cycles - machine.cpu.cycles) final := by
  obtain rfl := stages.middle_eq
  obtain rfl := stages.served_eq
  obtain rfl := stages.final_eq
  have uncut : (executed.elapsing cost).settlingFault? = none :=
    stages.complete
  rw [step_of_executes stages.executes, uncut]
  rfl

/-- A step succeeds exactly if it goes through all stages. -/
theorem step_ok_iff :
    (∃ cycles, machine.step = .ok cycles final) ↔
      ∃ cost executed middle served,
        machine.Stages cost executed middle served final := by
  constructor
  · rintro ⟨cycles, stepped⟩
    cases executes : machine.perform .executeOrIdle with
    | error fault left =>
        cases stepped.symm.trans (step_of_not_executes executes)
    | ok cost executed =>
        rw [step_of_executes executes] at stepped
        split at stepped
        case h_1 complete =>
          cases stepped
          exact ⟨cost, executed, _, _, .of_complete executes complete⟩
        case h_2 => cases stepped
  · rintro ⟨cost, executed, middle, served, stages⟩
    exact ⟨_, stages.step_eq⟩

end Machine

end Dmg
