import Dmg.Proofs.Halt
import Dmg.Proofs.MemoryMap

namespace Dmg

/-!
# What a transfer copies

A transfer reads through the bus while it overwrites object memory.  No page but the
last one has a byte that cannot be read, and a byte of object memory is on the only page
that leads there at the very offset that it is copied to.  So what was copied before
makes no difference to what is read, and object memory becomes the page as it was, which
is also the page as it is afterwards.  The last page can be copied as far as the third
byte.
-/

namespace Bus

/-- The address of a byte of the page that is copied. -/
def sourceAt
    (page : UInt8)
    (offset : Fin 0xA0) :
    UInt16 :=
  pageStart page + UInt16.ofNat offset.val

theorem toNat_sourceAt
    (page : UInt8)
    (offset : Fin 0xA0) :
    (sourceAt page offset).toNat = page.toNat * 256 + offset.val := by
  have pageBound := page.toNat_lt
  have offsetBound := offset.isLt
  have start : (pageStart page).toNat = page.toNat * 256 := by
    have shifted := UInt16.toNat_shiftLeft page.toUInt16 8
    rw [UInt8.toNat_toUInt16] at shifted
    change (pageStart page).toNat = _ at shifted
    rw [shifted]
    change page.toNat <<< 8 % 2 ^ 16 = _
    rw [Nat.shiftLeft_eq]
    omega
  unfold sourceAt
  rw [UInt16.toNat_add, start, UInt16.toNat_ofNat']
  omega

variable
  {bus : Bus}
  {page : UInt8}
  {offset : Fin 0xA0}

/-- A page other than the last one has no registers. -/
theorem sourceAt_not_register
    (notLast : page ≠ 0xFF)
    (address : UInt16) :
    Location.ofAddress (sourceAt page offset) ≠ .register address := by
  intro location
  have here := Location.ofAddress_at (sourceAt page offset)
  have pageBound := page.toNat_lt
  have pageLower : page.toNat ≠ 0xFF :=
    fun same => notLast (UInt8.toNat_inj.mp same)
  rw [location, toNat_sourceAt] at here
  simp only [Location.At] at here
  omega

/-- A byte of object memory is on its page at its own offset. -/
theorem eq_of_sourceAt_objectMemory
    {stored : Fin 0xA0}
    (location :
      Location.ofAddress (sourceAt page offset) = .objectMemory stored) :
    stored = offset := by
  have here := Location.ofAddress_at (sourceAt page offset)
  have offsetBound := offset.isLt
  have storedBound := stored.isLt
  rw [location, toNat_sourceAt] at here
  simp only [Location.At] at here
  exact Fin.ext (by omega)

/-- Every byte of a page other than the last one can be read. -/
theorem read_sourceAt_ok
    (notLast : page ≠ 0xFF)
    (bus : Bus)
    (offset : Fin 0xA0) :
    ∃ value, bus.read (sourceAt page offset) = .ok value := by
  unfold read
  cases location : Location.ofAddress (sourceAt page offset) with
  | register address =>
      exact absurd location (sourceAt_not_register notLast address)
  | _ => exact ⟨_, rfl⟩

/-- The bus with one byte of object memory replaced. -/
def withObjectByte
    (bus : Bus) :
    Fin 0xA0 →
    UInt8 →
    Bus
  | ⟨place, inside⟩, value =>
      { bus with
        objectMemory := bus.objectMemory.set place value inside }

/-- A byte that has been copied leaves the page as it reads. -/
theorem read_sourceAt_withObjectByte
    {copied : Fin 0xA0}
    {value : UInt8}
    (read : bus.read (sourceAt page copied) = .ok value) :
    (bus.withObjectByte copied value).read (sourceAt page offset) =
      bus.read (sourceAt page offset) := by
  unfold Bus.read at read ⊢
  cases location : Location.ofAddress (sourceAt page offset) with
  | objectMemory stored =>
      -- The page is that of object memory, so a byte was copied onto itself.
      cases eq_of_sourceAt_objectMemory location
      by_cases same : offset = copied
      · subst same
        rw [location] at read
        exact (congrArg Except.ok (get_set_same _ _ value)).trans read.symm
      · exact congrArg Except.ok (get_set_other same _ value)
  | _ => rfl

/-- Without registers, a page reads the same when the request has been withdrawn. -/
theorem read_sourceAt_clearTransfer
    (notLast : page ≠ 0xFF)
    (bus : Bus)
    (offset : Fin 0xA0) :
    bus.clearTransfer.read (sourceAt page offset) =
      bus.read (sourceAt page offset) := by
  unfold Bus.read
  cases location : Location.ofAddress (sourceAt page offset) with
  | register address =>
      exact absurd location (sourceAt_not_register notLast address)
  | _ => rfl

/-- A copy goes on after a byte that can be read. -/
theorem copyToObjectMemory_read
    {value : UInt8}
    (read : bus.read (sourceAt page offset) = .ok value)
    (rest : List (Fin 0xA0)) :
    copyToObjectMemory (pageStart page) (offset :: rest) bus =
      copyToObjectMemory (pageStart page) rest
        (bus.withObjectByte offset value) := by
  unfold sourceAt at read
  rw [copyToObjectMemory_cons, read]
  rfl

/-- A copy ends at a byte that cannot be read. -/
theorem copyToObjectMemory_fault
    {fault : Fault}
    (read : bus.read (sourceAt page offset) = .error fault)
    (rest : List (Fin 0xA0)) :
    copyToObjectMemory (pageStart page) (offset :: rest) bus =
      ⟨bus, some fault⟩ := by
  unfold sourceAt at read
  rw [copyToObjectMemory_cons, read]

/--
The bytes at some offsets of a page have been copied.  The page reads as before, and
nothing but those bytes of object memory has changed.
-/
structure Copied
    (page : UInt8)
    (offsets : List (Fin 0xA0))
    (before after : Bus) :
    Prop where
  source :
    ∀ offset,
      after.read (sourceAt page offset) = before.read (sourceAt page offset)
  copied :
    ∀ offset ∈ offsets,
      before.read (sourceAt page offset) =
        .ok (after.objectMemory.get offset)
  kept :
    ∀ offset ∉ offsets,
      after.objectMemory.get offset = before.objectMemory.get offset
  others : after = { before with objectMemory := after.objectMemory }

namespace Copied

theorem none
    (page : UInt8)
    (bus : Bus) :
    Copied page [] bus bus where
  source _ := rfl
  copied _ isCopied := nomatch isCopied
  kept _ _ := rfl
  others := rfl

/-- One byte may be copied before others; it is kept unless it is copied again. -/
theorem cons
    {first : Fin 0xA0}
    {rest : List (Fin 0xA0)}
    {value : UInt8}
    {after : Bus}
    (read : bus.read (sourceAt page first) = .ok value)
    (goesOn : Copied page rest (bus.withObjectByte first value) after) :
    Copied page (first :: rest) bus after where
  source offset :=
    (goesOn.source offset).trans (read_sourceAt_withObjectByte read)
  copied := by
    intro offset isCopied
    by_cases later : offset ∈ rest
    case pos =>
      rw [← read_sourceAt_withObjectByte read]
      exact goesOn.copied offset later
    case neg =>
      rcases List.mem_cons.mp isCopied with isFirst | inRest
      · subst isFirst
        rw [goesOn.kept offset later, read]
        exact congrArg Except.ok (get_set_same _ offset value).symm
      · exact absurd inRest later
  kept := by
    intro offset notCopied
    rw [List.mem_cons, not_or] at notCopied
    exact (goesOn.kept offset notCopied.2).trans
      (get_set_other notCopied.1 _ value)
  others := goesOn.others

end Copied

/-- A copy from a page other than the last one is complete. -/
theorem copied_of_page
    (notLast : page ≠ 0xFF)
    (offsets : List (Fin 0xA0))
    (bus : Bus) :
    (copyToObjectMemory (pageStart page) offsets bus).fault = none ∧
      Copied page offsets bus
        (copyToObjectMemory (pageStart page) offsets bus).bus := by
  induction offsets generalizing bus with
  | nil => exact ⟨rfl, .none page bus⟩
  | cons first rest inductionHypothesis =>
      obtain ⟨value, read⟩ := read_sourceAt_ok notLast bus first
      obtain ⟨complete, goesOn⟩ :=
        inductionHypothesis (bus.withObjectByte first value)
      rw [copyToObjectMemory_read read]
      exact ⟨complete, goesOn.cons read⟩

/--
Object memory has become the page that was asked for, both as that was before and as it
is now; the request has been withdrawn, and nothing else has changed.
-/
structure PageCopied (before after : Bus) : Prop where
  asBefore :
    ∀ offset,
      before.read (sourceAt before.peripherals.transferPage offset) =
        .ok (after.objectMemory.get offset)
  asNow :
    ∀ offset,
      after.read (sourceAt before.peripherals.transferPage offset) =
        .ok (after.objectMemory.get offset)
  others :
    after =
      { before with
        objectMemory := after.objectMemory
        peripherals := { before.peripherals with transferPage := 0 } }

/-- A transfer from a page other than the last one copies it. -/
theorem transfer_of_page
    (someAsked : bus.peripherals.transferPage ≠ 0)
    (notLast : bus.peripherals.transferPage ≠ 0xFF) :
    bus.transfer.fault = none ∧ bus.PageCopied bus.transfer.bus := by
  obtain ⟨complete, copied⟩ :=
    copied_of_page notLast (List.finRange 0xA0) bus
  generalize result :
    copyToObjectMemory (pageStart bus.peripherals.transferPage)
      (List.finRange 0xA0) bus = copy at complete copied
  have transferred : bus.transfer = ⟨copy.bus.clearTransfer, none⟩ := by
    unfold transfer
    dsimp only
    rw [if_neg someAsked, result, complete]
  have asBefore (offset : Fin 0xA0) :=
    copied.copied offset (List.mem_finRange offset)
  rw [transferred]
  refine ⟨rfl, asBefore, ?_, ?_⟩
  · intro offset
    exact (read_sourceAt_clearTransfer notLast copy.bus offset).trans
      ((copied.source offset).trans (asBefore offset))
  · rw [copied.others]
    rfl

/-- The bus with the first registers in the first bytes of object memory. -/
def withFirstRegisters (bus : Bus) : Bus :=
  ((bus.withObjectByte 0 bus.peripherals.joypad.read).withObjectByte 1
    bus.peripherals.serialData).withObjectByte 2
    bus.peripherals.serialControl

/-- A transfer from the last page is cut short by the first address without a register. -/
theorem transfer_of_lastPage
    (last : bus.peripherals.transferPage = 0xFF) :
    bus.transfer =
      ⟨bus.withFirstRegisters, some (.unimplementedRegister 0xFF03)⟩ := by
  have joypad (bus : Bus) :
      bus.read (sourceAt 0xFF 0) = .ok bus.peripherals.joypad.read :=
    rfl
  have serialData (bus : Bus) :
      bus.read (sourceAt 0xFF 1) = .ok bus.peripherals.serialData :=
    rfl
  have serialControl (bus : Bus) :
      bus.read (sourceAt 0xFF 2) = .ok bus.peripherals.serialControl :=
    rfl
  have absent (bus : Bus) :
      bus.read (sourceAt 0xFF 3) =
        .error (.unimplementedRegister 0xFF03) :=
    rfl
  have offsets :
      ∃ rest, List.finRange 0xA0 = 0 :: 1 :: 2 :: 3 :: rest :=
    ⟨_, rfl⟩
  obtain ⟨rest, offsets⟩ := offsets
  unfold transfer
  dsimp only
  rw [last, if_neg (by decide), offsets,
    copyToObjectMemory_read (joypad _),
    copyToObjectMemory_read (serialData _),
    copyToObjectMemory_read (serialControl _),
    copyToObjectMemory_fault (absent _)]
  rfl

/-- Only a transfer from the last page fails. -/
theorem transfer_fault_eq_some_iff {fault : Fault} :
    bus.transfer.fault = some fault ↔
      bus.peripherals.transferPage = 0xFF ∧
        fault = .unimplementedRegister 0xFF03 := by
  by_cases last : bus.peripherals.transferPage = 0xFF
  case pos =>
    rw [transfer_of_lastPage last, Option.some.injEq]
    exact ⟨fun same => ⟨last, same.symm⟩, fun ⟨_, same⟩ => same.symm⟩
  case neg =>
    have complete : bus.transfer.fault = none := by
      by_cases nothing : bus.peripherals.transferPage = 0
      · rw [transfer, if_pos nothing]
      · exact (transfer_of_page nothing last).1
    rw [complete]
    constructor
    · intro impossible
      cases impossible
    · rintro ⟨same, -⟩
      exact absurd same last

/-- A transfer that does not fail leaves nothing to be asked for. -/
theorem transferPage_of_complete (complete : bus.transfer.fault = none) :
    bus.transfer.bus.peripherals.transferPage = 0 := by
  by_cases nothing : bus.peripherals.transferPage = 0
  case pos => rwa [transfer, if_pos nothing]
  case neg =>
    have notLast : bus.peripherals.transferPage ≠ 0xFF := by
      intro last
      rw [transfer_of_lastPage last] at complete
      cases complete
    rw [(transfer_of_page nothing notLast).2.others]

end Bus

namespace Machine

variable
  {machine : Machine}
  {middle served : Execution}

/-- What precedes interrupts succeeds only if an instruction or an idle slot does. -/
theorem executes_of_advance
    (advances : machine.perform .advance = .ok () middle) :
    ∃ cost executed,
      machine.perform .executeOrIdle = .ok cost executed ∧
        middle = executed.elapsing cost := by
  cases executes : machine.perform .executeOrIdle with
  | ok cost executed =>
      have advanced := Action.run_advance executes
      cases advances.symm.trans advanced
      exact ⟨cost, executed, rfl, rfl⟩
  | error fault executed =>
      have failed :
          Action.Ensures .advance (.start machine)
            (fun _ _ => False) (fun _ _ => True) := by
        have left : Action.executeOrIdle.run (.start machine) = _ := executes
        rw [Action.ensures_advance, Action.Ensures, left]
        trivial
      exact (failed.of_ok advances).elim

/-- Up to the transfer nothing fails any more, and the transfer takes no time. -/
theorem step_of_served
    (advances : machine.perform .advance = .ok () middle)
    (serves : Action.serveInterrupts.run middle = .ok () served) :
    machine.step =
      match served.bus.transfer.fault with
      | none =>
          .ok (served.cpu.cycles - machine.cpu.cycles)
            (served.withBus served.bus.transfer.bus)
      | some fault =>
          .error fault (served.withBus served.bus.transfer.bus) := by
  obtain ⟨cost, executed, executes, rfl⟩ := executes_of_advance advances
  cases serves.symm.trans Action.run_serveInterrupts
  exact step_of_executes executes

/--
A transfer is a copy all at once.  After the instruction and the interrupts of a step, a
page other than the last one that is asked for makes the step succeed, without a further
cycle: object memory becomes that page, as it was and as it still is, the request is
withdrawn, and nothing else changes.  A transfer, in a step or asked for from outside,
fails only for the last page; that leaves the registers at its start in object memory
and the request.  So no successful step leaves a request.
-/
theorem transfer_copies_page
    (advances : machine.perform .advance = .ok () middle)
    (serves : Action.serveInterrupts.run middle = .ok () served) :
    let page := served.bus.peripherals.transferPage
    (page ≠ 0 →
        page ≠ 0xFF →
        ∃ bus,
          machine.step =
              .ok (served.cpu.cycles - machine.cpu.cycles)
                (served.withBus bus) ∧
            served.bus.PageCopied bus) ∧
      (page = 0xFF →
        machine.step =
          .error (.unimplementedRegister 0xFF03)
            (served.withBus served.bus.withFirstRegisters)) ∧
      (∀ (bus : Bus) (fault : Fault),
        bus.transfer.fault = some fault ↔
          bus.peripherals.transferPage = 0xFF ∧
            fault = .unimplementedRegister 0xFF03) ∧
      (∀ bus : Bus,
        bus.peripherals.transferPage ≠ 0 →
          bus.peripherals.transferPage ≠ 0xFF →
          bus.PageCopied bus.transfer.bus) ∧
      (∀ bus : Bus,
        bus.peripherals.transferPage = 0xFF →
          bus.transfer.bus = bus.withFirstRegisters) ∧
      ∀ (start : Machine) (cost : UInt64) (final : Execution),
        start.step = .ok cost final →
          final.bus.peripherals.transferPage = 0 := by
  have stepped := step_of_served advances serves
  refine ⟨?_, ?_, ?_, ?_, ?_, ?_⟩
  · intro someAsked notLast
    obtain ⟨complete, copied⟩ := Bus.transfer_of_page someAsked notLast
    rw [complete] at stepped
    exact ⟨_, stepped, copied⟩
  · intro last
    rwa [Bus.transfer_of_lastPage last] at stepped
  · intro bus fault
    exact Bus.transfer_fault_eq_some_iff
  · intro bus someAsked notLast
    exact (Bus.transfer_of_page someAsked notLast).2
  · intro bus last
    rw [Bus.transfer_of_lastPage last]
  · intro start cost final succeeded
    obtain ⟨_, _, _, served, stages⟩ := step_ok_iff.mp ⟨cost, succeeded⟩
    rw [stages.final_eq]
    exact Bus.transferPage_of_complete stages.complete

/-- A halted processor with a request for the echo of the first page of work RAM. -/
def askingForTransfer : Machine where
  cpu := { Cpu.powerOn with halted := true }
  bus :=
    { Bus.powerOn .blank with
      workRam := (Vector.replicate 0x2000 0).set 5 0x77
      peripherals := { Peripherals.powerOn with transferPage := 0xE0 } }

/-- An idle slot is enough for the transfer. -/
theorem transfer_copies_page_askingForTransfer :
    ∃ final,
      askingForTransfer.step = .ok 4 final ∧
        final.bus.objectMemory.get 5 = 0x77 ∧
        final.bus.peripherals.transferPage = 0 := by
  let slept := (Execution.start askingForTransfer).elapsing 4
  have advances : askingForTransfer.perform .advance = .ok () slept :=
    Action.run_advance (executeOrIdle_of_halted rfl)
  have quiet : slept.serving = slept :=
    Execution.serving_of_quiet (Interrupt.due_zero _)
  have serves : Action.serveInterrupts.run slept = .ok () slept := by
    rw [Action.run_serveInterrupts, quiet]
  obtain ⟨copies, -⟩ := transfer_copies_page advances serves
  obtain ⟨bus, stepped, copied⟩ := copies (by decide) (by decide)
  have taken : slept.cpu.cycles - askingForTransfer.cpu.cycles = 4 := by
    decide
  have stored : slept.bus.read (Bus.sourceAt 0xE0 5) = .ok 0x77 := rfl
  rw [taken] at stepped
  refine ⟨_, stepped, ?_, ?_⟩
  · exact Except.ok.inj ((copied.asBefore 5).symm.trans stored)
  · rw [Execution.withBus_bus, copied.others]

end Machine

end Dmg
