import Dmg.Machine.Run
import Mathlib.Logic.Relation

namespace Dmg

/-!
# Sessions

A session is what becomes of a machine under a sequence of calls from outside,
together with the record of every execution that the calls led to.  A call that runs
the machine for a while leads to many executions, and a call may end in a fault; the
session goes on from whatever machine is left.
-/

/-- What can be asked of a machine from outside. -/
inductive Call where
  | step
  | runFor (cycles : UInt64)
  | poke (address : UInt16) (value : UInt8)
  | press (pressed : UInt8)
  | request (source : Interrupt)
  /-- Dispatch an interrupt of this source, if that is due. -/
  | interrupt (source : Interrupt)
  /-- Carry out the transfer to object memory that is asked for. -/
  | transfer
  deriving Repr, DecidableEq

/-- A machine and the executions that it has gone through, the latest first. -/
structure Session where
  machine : Machine
  past : List Execution

namespace Session

/-- A session with a machine that has done nothing yet. -/
def start (machine : Machine) : Session where
  machine := machine
  past := []

/-- Go on with what an execution leaves. -/
def extend
    (session : Session)
    (execution : Execution) :
    Session where
  machine := execution.toMachine
  past := execution :: session.past

/-- The events of all executions so far, the latest first. -/
def history (session : Session) : List Event :=
  session.past.flatMap Execution.journal

/-- A store from outside, as an execution. -/
def poked
    (machine : Machine)
    (address : UInt16)
    (value : UInt8) :
    Execution where
  toMachine := machine.poke address value
  journal := [.write address value]

/-- What a call makes of a session. -/
def after (session : Session) : Call → Session
  | .step => session.extend session.machine.step.execution
  | .runFor cycles =>
      let run :=
        session.machine.runFor
          (fun outcome past => outcome.execution :: past)
          cycles session.past
      ⟨run.machine, run.observed⟩
  | .poke address value =>
      session.extend (poked session.machine address value)
  | .press pressed =>
      session.extend (.start (session.machine.press pressed))
  | .request source =>
      session.extend (.start (session.machine.request source))
  | .interrupt source =>
      session.extend
        (session.machine.perform (.interrupt source)).execution
  | .transfer =>
      session.extend (session.machine.perform .transfer).execution

/-- What a sequence of calls makes of a session. -/
def afterAll
    (session : Session)
    (calls : List Call) :
    Session :=
  calls.foldl after session

/-- One execution further. -/
inductive Next : Session → Session → Prop where
  | step
      (session : Session) :
      Next session (session.extend session.machine.step.execution)
  | poke
      (session : Session)
      (address : UInt16)
      (value : UInt8) :
      Next session (session.extend (poked session.machine address value))
  | press
      (session : Session)
      (pressed : UInt8) :
      Next session
        (session.extend (.start (session.machine.press pressed)))
  | request
      (session : Session)
      (source : Interrupt) :
      Next session
        (session.extend (.start (session.machine.request source)))
  | interrupt
      (session : Session)
      (source : Interrupt) :
      Next session
        (session.extend
          (session.machine.perform (.interrupt source)).execution)
  | transfer
      (session : Session) :
      Next session
        (session.extend (session.machine.perform .transfer).execution)

/-- Any number of executions further. -/
abbrev Later := Relation.ReflTransGen Next

/-- A session goes on with a run up to a bound. -/
def ranWhile
    (bound : UInt64)
    (allowance : Nat)
    (session : Session) :
    Session :=
  let run :=
    session.machine.runWhile bound
      (fun outcome past => outcome.execution :: past)
      allowance session.past
  ⟨run.machine, run.observed⟩

/-- A run leads from one execution to the next. -/
theorem later_ranWhile
    (bound : UInt64)
    (allowance : Nat)
    (session : Session) :
    Later session (session.ranWhile bound allowance) := by
  induction allowance generalizing session with
  | zero =>
      exact .refl
  | succ allowance inductionHypothesis =>
      have stepped := Next.step session
      unfold ranWhile
      rw [Machine.runWhile]
      split
      · cases outcome : session.machine.step with
        | ok cost execution =>
            rw [outcome] at stepped
            exact .head stepped (inductionHypothesis _)
        | error fault execution =>
            rw [outcome] at stepped
            -- A fault ends the run, with what the step has left.
            exact .single stepped
      · exact .refl

/-- A run goes through one execution for each step that it is allowed, at most. -/
theorem length_past_ranWhile_le
    (bound : UInt64)
    (allowance : Nat)
    (session : Session) :
    (session.ranWhile bound allowance).past.length ≤
      session.past.length + allowance := by
  induction allowance generalizing session with
  | zero => exact Nat.le_refl _
  | succ allowance inductionHypothesis =>
      unfold ranWhile
      rw [Machine.runWhile]
      split
      case isFalse => exact Nat.le_add_right _ _
      case isTrue below =>
        cases session.machine.step with
        | ok cost execution =>
            have goesOn := inductionHypothesis (session.extend execution)
            exact Nat.le_trans goesOn (Nat.le_of_eq (Nat.succ_add _ _))
        | error fault execution =>
            exact Nat.succ_le_succ (Nat.le_add_right _ _)

theorem later_after
    (session : Session)
    (call : Call) :
    Later session (session.after call) := by
  cases call with
  | step => exact .single (.step session)
  | runFor cycles => exact later_ranWhile _ _ session
  | poke address value => exact .single (.poke session address value)
  | press pressed => exact .single (.press session pressed)
  | request source => exact .single (.request session source)
  | interrupt source => exact .single (.interrupt session source)
  | transfer => exact .single (.transfer session)

theorem later_afterAll
    (session : Session)
    (calls : List Call) :
    Later session (session.afterAll calls) := by
  induction calls generalizing session with
  | nil =>
      exact .refl
  | cons call rest inductionHypothesis =>
      exact (later_after session call).trans
        (inductionHypothesis (session.after call))

/-- One execution further, the past is longer by one. -/
theorem Next.past_eq
    {earlier later : Session}
    (next : Next earlier later) :
    ∃ execution,
      later.past = execution :: earlier.past ∧
        execution.toMachine = later.machine := by
  cases next <;> exact ⟨_, rfl, rfl⟩

end Session

end Dmg
