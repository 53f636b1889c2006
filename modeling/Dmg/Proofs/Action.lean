import Dmg.Machine.Step

namespace Dmg

/-!
# Reasoning about actions

What an action ensures is said of its result and of its fault alike, since the machine
is kept in either case.  A sequence of actions is followed through one action at a
time; what every primitive action does is stated here once.
-/

namespace Execution

/-- The execution with one more event recorded. -/
def noting
    (execution : Execution)
    (event : Event) :
    Execution :=
  { execution with journal := event :: execution.journal }

/-- The execution with another processor. -/
def withCpu
    (execution : Execution)
    (cpu : Cpu) :
    Execution :=
  { execution with cpu := cpu }

/-- The execution with another bus. -/
def withBus
    (execution : Execution)
    (bus : Bus) :
    Execution :=
  { execution with bus := bus }

/-- The execution after a byte of data has been stored. -/
def storing
    (execution : Execution)
    (address : UInt16)
    (value : UInt8) :
    Execution :=
  (execution.noting (.write address value)).withBus
    (execution.bus.write address value)

section Projections

variable (execution : Execution) (event : Event) (cpu : Cpu) (bus : Bus)
variable (address : UInt16) (value : UInt8)

@[simp] theorem noting_cpu :
    (execution.noting event).cpu = execution.cpu :=
  rfl

@[simp] theorem noting_bus :
    (execution.noting event).bus = execution.bus :=
  rfl

@[simp] theorem noting_journal :
    (execution.noting event).journal = event :: execution.journal :=
  rfl

@[simp] theorem withCpu_cpu : (execution.withCpu cpu).cpu = cpu :=
  rfl

@[simp] theorem withCpu_bus :
    (execution.withCpu cpu).bus = execution.bus :=
  rfl

@[simp] theorem withCpu_journal :
    (execution.withCpu cpu).journal = execution.journal :=
  rfl

@[simp] theorem withBus_cpu :
    (execution.withBus bus).cpu = execution.cpu :=
  rfl

@[simp] theorem withBus_bus : (execution.withBus bus).bus = bus :=
  rfl

@[simp] theorem withBus_journal :
    (execution.withBus bus).journal = execution.journal :=
  rfl

@[simp] theorem storing_cpu :
    (execution.storing address value).cpu = execution.cpu :=
  rfl

@[simp] theorem storing_bus :
    (execution.storing address value).bus =
      execution.bus.write address value :=
  rfl

@[simp] theorem storing_journal :
    (execution.storing address value).journal =
      .write address value :: execution.journal :=
  rfl

end Projections

end Execution

namespace Action

variable {α β : Type}

/-- An action that starts so returns, or fails, only as the two conditions allow. -/
def Ensures
    (action : Action α)
    (start : Execution)
    (returned : α → Execution → Prop)
    (failed : Fault → Execution → Prop) :
    Prop :=
  match action.run start with
  | .ok result final => returned result final
  | .error fault final => failed fault final

namespace Ensures

variable
  {start : Execution}
  {returned : α → Execution → Prop}
  {failed : Fault → Execution → Prop}

theorem of_ok
    {action : Action α}
    (ensured : Ensures action start returned failed)
    {result : α}
    {final : Execution}
    (ran : action.run start = .ok result final) :
    returned result final := by
  unfold Ensures at ensured
  rwa [ran] at ensured

theorem of_error
    {action : Action α}
    (ensured : Ensures action start returned failed)
    {fault : Fault}
    {final : Execution}
    (ran : action.run start = .error fault final) :
    failed fault final := by
  unfold Ensures at ensured
  rwa [ran] at ensured

/-- Both conditions may be weakened. -/
theorem mono
    {action : Action α}
    {returned' : α → Execution → Prop}
    {failed' : Fault → Execution → Prop}
    (ensured : Ensures action start returned failed)
    (weakerReturned :
      ∀ result final, returned result final → returned' result final)
    (weakerFailed :
      ∀ fault final, failed fault final → failed' fault final) :
    Ensures action start returned' failed' := by
  unfold Ensures at ensured ⊢
  cases ran : action.run start with
  | ok result final =>
      rw [ran] at ensured
      exact weakerReturned result final ensured
  | error fault final =>
      rw [ran] at ensured
      exact weakerFailed fault final ensured

/-- What is ensured in either case holds of the execution that is left. -/
theorem execution
    {action : Action α}
    {left : Execution → Prop}
    (ensured :
      Ensures action start (fun _ final => left final)
        (fun _ final => left final)) :
    left (Outcome.execution (action.run start)) := by
  unfold Ensures at ensured
  cases ran : action.run start with
  | ok result final =>
      rw [ran] at ensured
      exact ensured
  | error fault final =>
      rw [ran] at ensured
      exact ensured

end Ensures

section Rules

variable
  {start : Execution}
  {returned : α → Execution → Prop}
  {failed : Fault → Execution → Prop}

@[simp] theorem ensures_pure (result : α) :
    Ensures (pure result) start returned failed ↔ returned result start :=
  Iff.rfl

@[simp] theorem ensures_throw (fault : Fault) :
    Ensures (throw fault) start returned failed ↔ failed fault start :=
  Iff.rfl

@[simp] theorem ensures_bind
    (first : Action β)
    (next : β → Action α) :
    Ensures (first >>= next) start returned failed ↔
      Ensures first start
        (fun result middle => Ensures (next result) middle returned failed)
        failed := by
  unfold Ensures
  rw [EStateM.run_bind]
  cases first.run start <;> rfl

/-- An action may be followed by another wherever it leaves off, with the same faults. -/
theorem Ensures.bind
    {first : Action β}
    {next : β → Action α}
    {between : β → Execution → Prop}
    (ensured : Ensures first start between failed)
    (continued :
      ∀ result middle,
        between result middle →
          Ensures (next result) middle returned failed) :
    Ensures (first >>= next) start returned failed := by
  rw [ensures_bind]
  exact ensured.mono continued fun _ _ failure => failure

@[simp] theorem ensures_ite
    (condition : Prop)
    [Decidable condition]
    (whenTrue whenFalse : Action α) :
    Ensures (if condition then whenTrue else whenFalse)
        start returned failed ↔
      if condition then
        Ensures whenTrue start returned failed
      else
        Ensures whenFalse start returned failed := by
  split <;> rfl

end Rules

section Primitives

variable
  {start : Execution}
  {failed : Fault → Execution → Prop}

@[simp] theorem ensures_cpu {returned : Cpu → Execution → Prop} :
    Ensures cpu start returned failed ↔ returned start.cpu start :=
  Iff.rfl

@[simp] theorem ensures_bus {returned : Bus → Execution → Prop} :
    Ensures bus start returned failed ↔ returned start.bus start :=
  Iff.rfl

variable {returned : Unit → Execution → Prop}

@[simp] theorem ensures_modifyCpu (change : Cpu → Cpu) :
    Ensures (modifyCpu change) start returned failed ↔
      returned () (start.withCpu (change start.cpu)) :=
  Iff.rfl

@[simp] theorem ensures_modifyBus (change : Bus → Bus) :
    Ensures (modifyBus change) start returned failed ↔
      returned () (start.withBus (change start.bus)) :=
  Iff.rfl

@[simp] theorem ensures_record (event : Event) :
    Ensures (record event) start returned failed ↔
      returned () (start.noting event) :=
  Iff.rfl

@[simp] theorem ensures_writeByte
    (address : UInt16)
    (value : UInt8) :
    Ensures (writeByte address value) start returned failed ↔
      returned () (start.storing address value) :=
  Iff.rfl

@[simp] theorem ensures_access
    {returned : UInt8 → Execution → Prop}
    (address : UInt16) :
    Ensures (access address) start returned failed ↔
      match start.bus.read address with
      | .ok value => returned value start
      | .error fault => failed fault start := by
  unfold access
  rw [ensures_bind, ensures_bus]
  cases start.bus.read address <;> rfl

end Primitives

end Action

end Dmg
