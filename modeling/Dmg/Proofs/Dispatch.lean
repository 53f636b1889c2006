import Dmg.Proofs.Requests
import Dmg.Proofs.StepStages

namespace Dmg

/-!
# Which interrupt is dispatched

After an instruction and the clock have run, one interrupt is dispatched if the master
enable is set and any source is due, and it is that of the lowest bit.  Requests that
are not served stay; so over a step the requests only gain what the clock raises and
lose what is dispatched, unless the program stores them itself.
-/

namespace Interrupt

/-- The number of the bit of a source. -/
def index : Interrupt → Fin 5
  | .vBlank => 0
  | .lcdStat => 1
  | .timer => 2
  | .serial => 3
  | .joypad => 4

/-- The bit of a number. -/
def bitAt (number : Fin 5) : UInt8 :=
  1 <<< UInt8.ofNat number.val

/-- The address of the handler for the bit of a number. -/
def vectorAt (number : Fin 5) : UInt16 :=
  0x40 + 8 * UInt16.ofNat number.val

@[simp] theorem bitAt_index (source : Interrupt) :
    bitAt source.index = source.bit := by
  cases source <;> rfl

@[simp] theorem vectorAt_index (source : Interrupt) :
    vectorAt source.index = source.vector := by
  cases source <;> rfl

/-- The handlers of different bits start at different addresses. -/
theorem vectorAt_injective
    {first second : Fin 5}
    (same : vectorAt first = vectorAt second) :
    first = second := by
  revert first second
  decide

/-- A bit of this number is set, and no lower one. -/
def IsLowestBit
    (number : Fin 5)
    (bits : UInt8) :
    Prop :=
  bits.toNat.testBit number.val = true ∧
    ∀ lower, lower < number.val → bits.toNat.testBit lower = false

/-- Only one bit is the lowest. -/
theorem IsLowestBit.unique
    {first second : Fin 5}
    {bits : UInt8}
    (firstLowest : IsLowestBit first bits)
    (secondLowest : IsLowestBit second bits) :
    first = second := by
  rcases Nat.lt_trichotomy first.val second.val with below | same | above
  · rw [IsLowestBit, secondLowest.2 first.val below] at firstLowest
    cases firstLowest.1
  · exact Fin.ext same
  · rw [IsLowestBit, firstLowest.2 second.val above] at secondLowest
    cases secondLowest.1

theorem isIn_eq_testBit
    (source : Interrupt)
    (bits : UInt8) :
    source.isIn bits = bits.toNat.testBit source.index.val := by
  have power : source.bit.toNat = 2 ^ source.index.val := by
    cases source <;> rfl
  exact Byte.masked_eq_testBit power bits

theorem mem_all (source : Interrupt) : source ∈ all := by
  cases source <;> decide

/-- The sources are listed in the order of their bits. -/
theorem index_getElem :
    ∀ place (inRange : place < all.length),
      all[place].index.val = place := by
  decide

/-- The most urgent source is that of the lowest bit. -/
theorem isLowestBit_of_mostUrgent?
    {bits : UInt8}
    {source : Interrupt}
    (found : mostUrgent? bits = some source) :
    IsLowestBit source.index bits := by
  obtain ⟨isSet, place, inRange, here, passed⟩ :=
    List.find?_eq_some_iff_getElem.mp found
  have number : source.index.val = place := by
    rw [← here, index_getElem]
  refine ⟨(isIn_eq_testBit source bits).symm.trans isSet, ?_⟩
  intro lower below
  rw [number] at below
  have unset := passed lower below
  rw [isIn_eq_testBit, index_getElem] at unset
  simpa using unset

/-- No source is the most urgent one exactly if no source is due. -/
theorem mostUrgent?_due_eq_none_iff (requests enabled : UInt8) :
    mostUrgent? (due requests enabled) = none ↔
      due requests enabled = 0 := by
  have small : (due requests enabled).toNat < 2 ^ 5 := by
    unfold due
    rw [UInt8.toNat_and]
    exact Nat.and_lt_two_pow _ (by decide)
  constructor
  · intro nothing
    have unset : ∀ source ∈ all, ¬ source.isIn (due requests enabled) :=
      List.find?_eq_none.mp nothing
    apply UInt8.toNat_inj.mp
    apply Nat.eq_of_testBit_eq
    intro number
    rw [UInt8.toNat_zero, Nat.zero_testBit]
    rcases Nat.lt_or_ge number 5 with inRange | beyond
    · rw [← index_getElem number inRange, ← isIn_eq_testBit]
      exact eq_false_of_ne_true (unset _ (mem_all _))
    · exact Nat.testBit_lt_two_pow
        (small.trans_le (Nat.pow_le_pow_right (by decide) beyond))
  · intro zero
    rw [zero]
    decide

end Interrupt

namespace Execution

/--
What the dispatch of the interrupt with a certain bit does: the request is withdrawn,
the program counter pushed and replaced by the address of the handler, and interrupts
are disabled, with no change of that pending.
-/
structure Dispatched
    (number : Fin 5)
    (before after : Execution) :
    Prop where
  cpu :
    after.cpu =
      { before.cpu with
        pc := Interrupt.vectorAt number
        sp := before.cpu.sp - 2
        cycles := before.cpu.cycles + 20
        ime := false
        halted := false
        pendingIme := none }
  bus :
    after.bus =
      ({ before.bus with
          peripherals :=
            { before.bus.peripherals with
              requests :=
                before.bus.peripherals.requests &&&
                  ~~~Interrupt.bitAt number } }.write
          (before.cpu.sp - 1) (Word.high before.cpu.pc)).write
        (before.cpu.sp - 2) (Word.low before.cpu.pc)
  journal :
    after.journal =
      .write (before.cpu.sp - 2) (Word.low before.cpu.pc) ::
        .write (before.cpu.sp - 1) (Word.high before.cpu.pc) ::
          before.journal

theorem dispatched_dispatching
    (execution : Execution)
    (source : Interrupt) :
    Dispatched source.index execution (execution.dispatching source) := by
  have twice : execution.cpu.sp - 1 - 1 = execution.cpu.sp - 2 := by
    grind
  constructor
  · rw [Interrupt.vectorAt_index, ← twice]
    rfl
  · rw [Interrupt.bitAt_index, ← twice]
    rfl
  · rw [← twice]
    rfl

namespace Dispatched

variable
  {number : Fin 5}
  {before after : Execution}
  (dispatched : Dispatched number before after)
include dispatched

/-- No two interrupts are dispatched at once. -/
theorem unique
    {other : Fin 5}
    (alsoDispatched : Dispatched other before after) :
    number = other :=
  Interrupt.vectorAt_injective
    (congrArg Cpu.pc (dispatched.cpu.symm.trans alsoDispatched.cpu))

/-- A dispatch takes time. -/
theorem cycles_ne : after.cpu.cycles ≠ before.cpu.cycles := by
  rw [dispatched.cpu]
  intro same
  exact absurd (UInt64.left_eq_add.mp same.symm) (by decide)

/-- A dispatch withdraws one request, unless the push stores others. -/
theorem requests (unwritten : RequestsUnwritten after.journal) :
    RequestsUnwritten before.journal ∧
      after.bus.peripherals.requests =
        before.bus.peripherals.requests &&& ~~~Interrupt.bitAt number := by
  rw [dispatched.journal] at unwritten
  refine ⟨unwritten.of_cons.of_cons, ?_⟩
  rw [dispatched.bus, Bus.write_requests unwritten.elsewhere,
    Bus.write_requests unwritten.of_cons.elsewhere]

end Dispatched

/-- What becomes of an execution when interrupts are served. -/
inductive Service (start : Execution) : Execution → Prop where
  | none
      (nothingDue : start.due = 0) :
      Service start start
  /-- The processor wakes up from a halt even if it cannot be interrupted. -/
  | wake
      (someDue : start.due ≠ 0)
      (disabled : start.cpu.ime = false) :
      Service start (start.withCpu { start.cpu with halted := false })
  | dispatch
      {number : Fin 5}
      {final : Execution}
      (enabled : start.cpu.ime = true)
      (lowest : Interrupt.IsLowestBit number start.due)
      (dispatched : Dispatched number start final) :
      Service start final

theorem service_serving (execution : Execution) :
    execution.Service execution.serving := by
  unfold serving
  cases found : Interrupt.mostUrgent? execution.due with
  | none =>
      exact .none ((Interrupt.mostUrgent?_due_eq_none_iff _ _).mp found)
  | some source =>
      have lowest := Interrupt.isLowestBit_of_mostUrgent? found
      have isDue : source.isIn execution.due = true :=
        (Interrupt.isIn_eq_testBit _ _).trans lowest.1
      let awake :=
        execution.withCpu { execution.cpu with halted := false }
      have accepted : awake.accepts source = execution.cpu.ime := by
        change (execution.cpu.ime && source.isIn execution.due) = _
        rw [isDue, Bool.and_true]
      change execution.Service (awake.offering source)
      cases enabled : execution.cpu.ime with
      | true =>
          rw [offering, if_pos (accepted.trans enabled)]
          exact .dispatch enabled lowest
            (execution.dispatched_dispatching source)
      | false =>
          rw [offering, accepted, enabled, if_neg Bool.false_ne_true]
          refine .wake ?_ enabled
          intro nothingDue
          rw [nothingDue] at isDue
          cases source <;> contradiction

namespace Service

variable
  {start final : Execution}
  (service : Service start final)
include service

/-- An interrupt is dispatched if the master enable is set and any source is due. -/
theorem dispatched_iff :
    (∃ number, Dispatched number start final) ↔
      start.cpu.ime = true ∧ start.due ≠ 0 := by
  cases service with
  | none nothingDue =>
      constructor
      · rintro ⟨number, dispatched⟩
        exact absurd rfl dispatched.cycles_ne
      · rintro ⟨-, someDue⟩
        exact absurd nothingDue someDue
  | wake someDue disabled =>
      constructor
      · rintro ⟨number, dispatched⟩
        exact absurd rfl dispatched.cycles_ne
      · rintro ⟨enabled, -⟩
        exact absurd enabled (Bool.eq_false_iff.mp disabled)
  | dispatch enabled lowest dispatched =>
      have someDue : start.due ≠ 0 := by
        intro nothingDue
        rw [nothingDue] at lowest
        exact absurd lowest.1 (by simp)
      exact ⟨fun _ => ⟨enabled, someDue⟩, fun _ => ⟨_, dispatched⟩⟩

/-- What is dispatched is the most urgent source that is due. -/
theorem isLowestBit
    {number : Fin 5}
    (dispatched : Dispatched number start final) :
    Interrupt.IsLowestBit number start.due := by
  cases service with
  | none => exact absurd rfl dispatched.cycles_ne
  | wake => exact absurd rfl dispatched.cycles_ne
  | dispatch _ lowest alsoDispatched =>
      rwa [dispatched.unique alsoDispatched]

/-- Where nothing is dispatched, nothing changes but that a halt may end. -/
theorem eq_of_not_dispatched
    (notDispatched : ¬ ∃ number, Dispatched number start final) :
    final =
      start.withCpu
        { start.cpu with
          halted := start.cpu.halted && start.due == 0 } := by
  cases service with
  | none nothingDue =>
      rw [nothingDue, beq_self_eq_true, Bool.and_true]
      rfl
  | wake someDue =>
      rw [beq_eq_false_iff_ne.mpr someDue, Bool.and_false]
  | dispatch _ _ dispatched =>
      exact absurd ⟨_, dispatched⟩ notDispatched

end Service

end Execution

namespace Machine

variable
  {machine : Machine}
  {cost : Nat}
  {executed middle served final : Execution}

namespace Stages

variable (stages : machine.Stages cost executed middle served final)
include stages

theorem service : middle.Service served := by
  rw [stages.served_eq]
  exact middle.service_serving

/-- A transfer does not reach the processor. -/
theorem final_cpu : final.cpu = served.cpu :=
  congrArg (·.cpu) stages.final_eq

theorem final_requests :
    final.bus.peripherals.requests = served.bus.peripherals.requests := by
  rw [stages.final_eq]
  exact served.bus.transfer_requests

theorem final_journal : final.journal = served.journal :=
  congrArg (·.journal) stages.final_eq

/-- The clock adds to the requests that the instruction was met with. -/
theorem middle_requests (unwritten : RequestsUnwritten middle.journal) :
    middle.bus.peripherals.requests =
      machine.bus.peripherals.requests |||
        executed.bus.peripherals.raisedUntil middle.cpu.cycles := by
  obtain rfl := stages.middle_eq
  have caughtUp : (executed.elapsing cost).bus.peripherals.requests =
      executed.bus.peripherals.requests |||
        executed.bus.peripherals.raisedUntil
          (executed.elapsing cost).cpu.cycles :=
    Peripherals.advanceTo_requests _ _
  have kept := Execution.requests_of_moves stages.moves unwritten.of_cons
  rw [caughtUp, kept]
  rfl

end Stages

/--
A successful step dispatches an interrupt exactly if, after the instruction and the
clock, the master enable is set and a source is due.  It dispatches only one, that of the
lowest bit, and without a dispatch the serving of interrupts at most ends a halt.  Unless
the requests are stored by the program or by the push, the clock may add that of the
vertical blank and that of the timer, and none is lost but the one that is dispatched.
-/
theorem step_serves_most_urgent
    {cycles : UInt64}
    (stepped : machine.step = .ok cycles final) :
    ∃ cost executed middle served,
      machine.Stages cost executed middle served final ∧
        ((∃ number, Execution.Dispatched number middle served) ↔
          middle.cpu.ime = true ∧ middle.due ≠ 0) ∧
        (∀ number, Execution.Dispatched number middle served →
          Interrupt.IsLowestBit number middle.due ∧
            ∀ other, Execution.Dispatched other middle served →
              other = number) ∧
        ((¬ ∃ number, Execution.Dispatched number middle served) →
          served =
            middle.withCpu
              { middle.cpu with
                halted := middle.cpu.halted && middle.due == 0 }) ∧
        final.cpu = served.cpu ∧
        (RequestsUnwritten final.journal →
          let raised :=
            executed.bus.peripherals.raisedUntil middle.cpu.cycles
          raised &&& ~~~Interrupt.clockBits = 0 ∧
            (∀ number, Execution.Dispatched number middle served →
              final.bus.peripherals.requests =
                (machine.bus.peripherals.requests ||| raised) &&&
                  ~~~Interrupt.bitAt number) ∧
            ((¬ ∃ number, Execution.Dispatched number middle served) →
              final.bus.peripherals.requests =
                machine.bus.peripherals.requests ||| raised)) := by
  obtain ⟨cost, executed, middle, served, stages⟩ :=
    step_ok_iff.mp ⟨cycles, stepped⟩
  have service := stages.service
  refine ⟨cost, executed, middle, served, stages, service.dispatched_iff,
    ?_, service.eq_of_not_dispatched, stages.final_cpu, ?_⟩
  · intro number dispatched
    exact ⟨service.isLowestBit dispatched,
      fun _ alsoDispatched => alsoDispatched.unique dispatched⟩
  · intro unwritten
    rw [stages.final_journal] at unwritten
    rw [stages.final_requests]
    refine ⟨Peripherals.raisedUntil_and _ _, ?_, ?_⟩
    · intro number dispatched
      obtain ⟨unwrittenBefore, withdrawn⟩ := dispatched.requests unwritten
      rw [withdrawn, stages.middle_requests unwrittenBefore]
    · intro notDispatched
      obtain rfl := service.eq_of_not_dispatched notDispatched
      exact stages.middle_requests unwritten

/-- A halted machine that the timer and the joypad are due to interrupt. -/
def atTwoRequests : Machine where
  cpu := { Cpu.powerOn with ime := true, halted := true }
  bus :=
    { Bus.powerOn .blank with
      interruptEnable := 0x1F
      peripherals := { Peripherals.powerOn with requests := 0x14 } }

/-- That machine after an idle slot. -/
def idledAtTwoRequests : Execution :=
  (Execution.start atTwoRequests).elapsing 4

/-- An idle slot after power-on is too short for the clock to raise a request. -/
theorem raisedUntil_idle :
    atTwoRequests.bus.peripherals.raisedUntil 4 = 0 := by
  have early :
      Lcd.powerOn.lineCountdown.advance Lcd.cyclesPerLine 4 =
        (⟨452⟩, 0) := by
    rw [Countdown.advance, Countdown.wind, dif_neg (by decide)]
    rfl
  change (Timer.advance 4 Timer.powerOn (Lcd.powerOn.advance 4 0).2).2 = 0
  rw [Lcd.advance, early]
  rfl

theorem due_idledAtTwoRequests : idledAtTwoRequests.due = 0x14 := by
  have requests :
      idledAtTwoRequests.bus.peripherals.requests =
        0x14 ||| atTwoRequests.bus.peripherals.raisedUntil 4 :=
    Peripherals.advanceTo_requests _ _
  have enabled : idledAtTwoRequests.bus.interruptEnable = 0x1F := rfl
  rw [Execution.due, requests, raisedUntil_idle, enabled]
  decide

/-- The program counter is pushed to high RAM, which asks for no transfer. -/
theorem transfer_idledAtTwoRequests
    {number : Fin 5}
    (dispatched :
      Execution.Dispatched number idledAtTwoRequests
        idledAtTwoRequests.serving) :
    idledAtTwoRequests.serving.bus.transfer.fault = none := by
  have top : idledAtTwoRequests.cpu.sp = 0xFFFE := rfl
  have page :
      idledAtTwoRequests.serving.bus.peripherals.transferPage = 0 := by
    rw [dispatched.bus, top, Bus.write_peripherals,
      Peripherals.write_outside_page (by decide), Bus.write_peripherals,
      Peripherals.write_outside_page (by decide)]
    rfl
  rw [Bus.transfer, if_pos page]

/-- The push of the program counter stores no requests. -/
theorem unwritten_idledAtTwoRequests
    {number : Fin 5}
    {served : Execution}
    (dispatched :
      Execution.Dispatched number idledAtTwoRequests served) :
    RequestsUnwritten served.journal := by
  have top : idledAtTwoRequests.cpu.sp = 0xFFFE := rfl
  have journal : idledAtTwoRequests.journal = [.catchUp 4] := rfl
  intro value member
  rw [dispatched.journal, journal, top] at member
  simp only [List.mem_cons, Event.write.injEq, reduceCtorEq,
    List.not_mem_nil, or_false] at member
  rcases member with ⟨low, -⟩ | ⟨high, -⟩
  · cases low
  · cases high

/-- The timer is served first; the request of the joypad stays. -/
theorem step_serves_most_urgent_atTwoRequests :
    ∃ cycles final,
      atTwoRequests.step = .ok cycles final ∧
        final.cpu.pc = Interrupt.timer.vector ∧
        final.cpu.ime = false ∧
        final.bus.peripherals.requests = Interrupt.joypad.bit := by
  have idles :
      atTwoRequests.perform .executeOrIdle =
        .ok 4 (.start atTwoRequests) :=
    rfl
  have someDue : idledAtTwoRequests.due ≠ 0 := by
    rw [due_idledAtTwoRequests]
    decide
  obtain ⟨_, pushes⟩ :=
    idledAtTwoRequests.service_serving.dispatched_iff.mpr ⟨rfl, someDue⟩
  obtain ⟨cycles, stepped⟩ :=
    step_ok_iff.mpr
      ⟨_, _, _, _,
        .of_complete idles (transfer_idledAtTwoRequests pushes)⟩
  obtain ⟨cost, executed, middle, served, stages, isDispatched, onlyLowest,
      -, sameCpu, requestsKept⟩ :=
    step_serves_most_urgent stepped
  cases stages.executes.symm.trans idles
  obtain rfl : middle = idledAtTwoRequests := stages.middle_eq
  obtain ⟨number, dispatched⟩ := isDispatched.mpr ⟨rfl, someDue⟩
  have third : number = Interrupt.timer.index := by
    have lowest := (onlyLowest number dispatched).1
    rw [due_idledAtTwoRequests] at lowest
    exact lowest.unique ⟨by decide, by decide⟩
  have unwritten := unwritten_idledAtTwoRequests dispatched
  rw [← stages.final_journal] at unwritten
  have withdrawn := (requestsKept unwritten).2.1 number dispatched
  refine ⟨cycles, _, stepped, ?_, ?_, ?_⟩
  · rw [sameCpu, dispatched.cpu, third, Interrupt.vectorAt_index]
  · rw [sameCpu, dispatched.cpu]
  · have noneRaised :
        (Execution.start atTwoRequests).bus.peripherals.raisedUntil
            idledAtTwoRequests.cpu.cycles =
          0 :=
      raisedUntil_idle
    rw [withdrawn, noneRaised, third, Interrupt.bitAt_index]
    rfl

end Machine

end Dmg
