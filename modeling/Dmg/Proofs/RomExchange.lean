import Dmg.Machine.Run
import Dmg.Proofs.CartridgeHistory
import Dmg.Proofs.Primitives
import Dmg.Proofs.StepStages

namespace Dmg

/-!
# Another ROM with the same banks

Only the banks of a ROM can be read.  A ROM that has the same bytes in all of them may
therefore take its place: whatever is done afterwards gives the same results, and leaves
what it would have left, but for the ROM.
-/

variable {rom : Array UInt8}

namespace Cartridge

/-- The cartridge over another ROM. -/
def withRom
    (rom : Array UInt8)
    (cartridge : Cartridge) :
    Cartridge :=
  { cartridge with rom := rom }

/-- The ROM has the bytes of all banks of the cartridge. -/
structure Covers
    (rom : Array UInt8)
    (cartridge : Cartridge) :
    Prop where
  twoBanks : 2 ≤ cartridge.romBanks
  banks :
    ∀ index < cartridge.romBanks * romBankSize,
      rom[index]? = cartridge.rom[index]?

/-- A ROM that covers a cartridge does so as long as the cartridge keeps its own. -/
theorem Covers.of_leads
    {earlier later : Cartridge}
    (covers : Covers rom earlier)
    (leads : earlier.Leads later) :
    Covers rom later := by
  obtain ⟨operations, rfl⟩ := leads
  have keeps := Keeps.afterAll earlier operations
  constructor
  · rw [keeps.romBanks]
    exact covers.twoBanks
  · rw [keeps.romBanks, keeps.rom]
    exact covers.banks

section Windows

variable
  {cartridge : Cartridge}
  {bank : Nat}
  (covers : Covers rom cartridge)
include covers

theorem Covers.romBank_lt : cartridge.romBank < cartridge.romBanks :=
  (cartridge.controller.romBank_range covers.twoBanks).2

/-- The byte of a bank is the same. -/
theorem Covers.found_eq
    {offset : Nat}
    (isBank : bank < cartridge.romBanks)
    (inside : offset < romBankSize) :
    rom[bank * romBankSize + offset]? =
      cartridge.rom[bank * romBankSize + offset]? := by
  apply covers.banks
  calc
    bank * romBankSize + offset < (bank + 1) * romBankSize := by
      rw [Nat.succ_mul]
      exact Nat.add_lt_add_left inside _
    _ ≤ cartridge.romBanks * romBankSize :=
      Nat.mul_le_mul_right romBankSize isBank

theorem Covers.romByte_eq
    {offset : Nat}
    (isBank : bank < cartridge.romBanks)
    (inside : offset < romBankSize) :
    (cartridge.withRom rom).romByte bank offset =
      cartridge.romByte bank offset := by
  unfold romByte
  rw [Array.getD_eq_getD_getElem?, Array.getD_eq_getD_getElem?]
  exact congrArg (·.getD 0) (covers.found_eq isBank inside)

/-- So are all bytes of a bank together. -/
theorem Covers.romBankBytes_eq (isBank : bank < cartridge.romBanks) :
    (cartridge.withRom rom).romBankBytes bank =
      cartridge.romBankBytes bank := by
  unfold romBankBytes
  rw [Nat.succ_mul]
  apply Array.ext_getElem?
  intro offset
  rw [getElem?_stretch, getElem?_stretch]
  split
  case isTrue inside => exact covers.found_eq isBank inside
  case isFalse => rfl

end Windows

theorem setRam_withRom
    (rom : Array UInt8)
    (cartridge : Cartridge)
    (offset : Nat)
    (value : UInt8) :
    (cartridge.withRom rom).setRam offset value =
      (cartridge.setRam offset value).withRom rom := by
  have samePlace :
      (cartridge.withRom rom).ramIndex? offset =
        cartridge.ramIndex? offset :=
    rfl
  unfold setRam
  rw [samePlace]
  split <;> rfl

theorem writeRam_withRom
    (rom : Array UInt8)
    (cartridge : Cartridge)
    (offset : Nat)
    (value : UInt8) :
    (cartridge.withRom rom).writeRam offset value =
      (cartridge.writeRam offset value).withRom rom := by
  have sameEnable :
      (cartridge.withRom rom).ramEnabled = cartridge.ramEnabled :=
    rfl
  unfold writeRam
  rw [sameEnable]
  split
  · exact cartridge.setRam_withRom rom offset value
  · rfl

/-- An operation may be carried out before the exchange as well as after it. -/
theorem apply_withRom
    (rom : Array UInt8)
    (cartridge : Cartridge)
    (operation : Operation) :
    (cartridge.withRom rom).apply operation =
      (cartridge.apply operation).withRom rom := by
  cases operation with
  | control address value => rfl
  | writeRam address value =>
      unfold apply writeRamAt
      dsimp only
      split
      · exact cartridge.writeRam_withRom rom _ value
      · rfl
  | setRam offset value => exact cartridge.setRam_withRom rom offset value
  | resetBanking => rfl

theorem afterAll_withRom
    (rom : Array UInt8)
    (cartridge : Cartridge)
    (operations : List Operation) :
    (cartridge.withRom rom).afterAll operations =
      (cartridge.afterAll operations).withRom rom := by
  induction operations generalizing cartridge with
  | nil => rfl
  | cons operation rest inductionHypothesis =>
      have later := inductionHypothesis (cartridge.apply operation)
      rw [← apply_withRom] at later
      exact later

end Cartridge

open Cartridge

namespace Bus

/-- The bus over another ROM. -/
def withRom
    (rom : Array UInt8)
    (bus : Bus) :
    Bus :=
  { bus with cartridge := bus.cartridge.withRom rom }

/-- What is read does not tell the one ROM from the other. -/
theorem read_withRom
    {bus : Bus}
    (covers : Covers rom bus.cartridge)
    (address : UInt16) :
    (bus.withRom rom).read address = bus.read address := by
  have twoBanks := covers.twoBanks
  unfold read
  cases Location.ofAddress address with
  | lowerRom offset =>
      exact congrArg Except.ok
        (covers.romByte_eq (by omega) offset.isLt)
  | upperRom offset =>
      exact congrArg Except.ok
        (covers.romByte_eq covers.romBank_lt offset.isLt)
  | _ => rfl

theorem write_withRom
    (rom : Array UInt8)
    (bus : Bus)
    (address : UInt16)
    (value : UInt8) :
    (bus.withRom rom).write address value =
      (bus.write address value).withRom rom := by
  unfold write
  cases Location.ofAddress address with
  | cartridgeRam offset =>
      exact congrArg
        (fun cartridge => { bus with cartridge := cartridge })
        (bus.cartridge.writeRam_withRom rom offset.val value)
  | _ => rfl

/-- A copy reads the same bytes from either ROM. -/
theorem copyToObjectMemory_withRom
    {bus : Bus}
    (covers : Covers rom bus.cartridge)
    (source : UInt16)
    (offsets : List (Fin 0xA0)) :
    copyToObjectMemory source offsets (bus.withRom rom) =
      { bus := (copyToObjectMemory source offsets bus).bus.withRom rom
        fault := (copyToObjectMemory source offsets bus).fault } := by
  induction offsets generalizing bus with
  | nil => rfl
  | cons offset rest inductionHypothesis =>
      rw [copyToObjectMemory_cons, copyToObjectMemory_cons,
        read_withRom covers]
      cases bus.read (source + UInt16.ofNat offset.val) with
      | error fault => rfl
      | ok value =>
          let copied : Bus :=
            { bus with
              objectMemory :=
                bus.objectMemory.set offset.val value offset.isLt }
          have stillCovers : Covers rom copied.cartridge := covers
          exact inductionHypothesis stillCovers

theorem transfer_withRom
    {bus : Bus}
    (covers : Covers rom bus.cartridge) :
    (bus.withRom rom).transfer =
      { bus := bus.transfer.bus.withRom rom
        fault := bus.transfer.fault } := by
  have samePage :
      (bus.withRom rom).peripherals.transferPage =
        bus.peripherals.transferPage :=
    rfl
  unfold transfer
  dsimp only
  rw [samePage, copyToObjectMemory_withRom covers]
  split
  · rfl
  · dsimp only
    split <;> rfl

end Bus

/-- The machine over another ROM. -/
def Machine.withRom
    (rom : Array UInt8)
    (machine : Machine) :
    Machine :=
  { machine with bus := machine.bus.withRom rom }

/-- The execution over another ROM. -/
def Execution.withRom
    (rom : Array UInt8)
    (execution : Execution) :
    Execution :=
  execution.withBus (execution.bus.withRom rom)

/-- The same result, or fault, over another ROM. -/
def Outcome.withRom
    {α : Type}
    (rom : Array UInt8) :
    Outcome α → Outcome α
  | .ok result execution => .ok result (execution.withRom rom)
  | .error fault execution => .error fault (execution.withRom rom)

namespace Action

/--
The action does not tell the ROM from another one with the same banks, and leaves a
machine that is covered by the same ROMs.
-/
def Blind
    {α : Type}
    (action : Action α) :
    Prop :=
  ∀ rom start,
    Covers rom start.bus.cartridge →
      action.run (start.withRom rom) =
          Outcome.withRom rom (action.run start) ∧
        Covers rom (Outcome.execution (action.run start)).bus.cartridge

section Runs

variable {start : Execution}

theorem run_access (address : UInt16) :
    (access address).run start =
      match start.bus.read address with
      | .ok value => .ok value start
      | .error fault => .error fault start := by
  apply Ensures.run_eq
  rw [ensures_access]
  cases start.bus.read address <;> rfl

theorem run_transfer_eq :
    transfer.run start =
      match start.bus.transfer.fault with
      | none => .ok () start.transferring
      | some fault => .error fault start.transferring := by
  apply Ensures.run_eq
  rw [ensures_transfer]
  cases start.bus.transfer.fault <;> rfl

end Runs

namespace Blind

variable {α β : Type}

theorem pure (result : α) : Blind (Pure.pure result) :=
  fun _ _ covers => ⟨rfl, covers⟩

theorem bind
    {first : Action β}
    {next : β → Action α}
    (firstBlind : Blind first)
    (nextBlind : ∀ result, Blind (next result)) :
    Blind (first >>= next) := by
  intro rom start covers
  obtain ⟨exchanged, covered⟩ := firstBlind rom start covers
  rw [EStateM.run_bind, EStateM.run_bind, exchanged]
  cases ran : first.run start with
  | error fault middle =>
      rw [ran] at covered
      exact ⟨rfl, covered⟩
  | ok result middle =>
      rw [ran] at covered
      exact nextBlind result rom middle covered

theorem ite
    {condition : Prop}
    [Decidable condition]
    {whenTrue whenFalse : Action α}
    (trueBlind : Blind whenTrue)
    (falseBlind : Blind whenFalse) :
    Blind (if condition then whenTrue else whenFalse) := by
  split
  · exact trueBlind
  · exact falseBlind

/-- A change of the bus that tells no difference between ROMs and keeps the cartridge. -/
theorem modifyBus
    {change : Bus → Bus}
    (exchanges :
      ∀ rom bus, change (bus.withRom rom) = (change bus).withRom rom)
    (keeps : ∀ bus, (change bus).cartridge = bus.cartridge) :
    Blind (modifyBus change) := by
  intro rom start covers
  constructor
  · exact congrArg
      (fun bus => EStateM.Result.ok () (start.withBus bus))
      (exchanges rom start.bus)
  · rw [← keeps start.bus] at covers
    exact covers

/-- No sequence of primitives tells the ROMs apart. -/
theorem of_built
    {action : Action α}
    (built : Built action) :
    Blind action := by
  induction built with
  | pure result => exact .pure result
  | throw | cpu | modifyCpu | record => exact fun _ _ covers => ⟨rfl, covers⟩
  | bind _ _ firstBlind nextBlind => exact firstBlind.bind nextBlind
  | access address =>
      intro rom start covers
      have sameByte :
          (start.withRom rom).bus.read address = start.bus.read address :=
        Bus.read_withRom covers address
      rw [run_access, run_access, sameByte]
      cases start.bus.read address with
      | ok value => exact ⟨rfl, covers⟩
      | error fault => exact ⟨rfl, covers⟩
  | writeByte address value =>
      intro rom start covers
      constructor
      · exact congrArg
          (fun bus =>
            EStateM.Result.ok ()
              ((start.noting (.write address value)).withBus bus))
          (start.bus.write_withRom rom address value)
      · exact covers.of_leads (Bus.write_leads start.bus address value)

end Blind

theorem blind_advancePeripherals : Blind advancePeripherals := by
  refine (Blind.of_built .cpu).bind fun _ => ?_
  refine (Blind.of_built (.record _)).bind fun _ => ?_
  exact .modifyBus (fun _ _ => rfl) fun _ => rfl

theorem blind_advance : Blind advance := by
  refine (Blind.of_built executeOrIdle_built).bind fun _ => ?_
  refine (Blind.of_built (.modifyCpu _)).bind fun _ => ?_
  refine (Blind.of_built (.modifyCpu _)).bind fun _ => ?_
  exact blind_advancePeripherals

theorem blind_dueInterrupts : Blind dueInterrupts :=
  fun _ _ covers => ⟨rfl, covers⟩

theorem blind_dispatch (source : Interrupt) : Blind (dispatch source) := by
  refine (Blind.of_built (.modifyCpu _)).bind fun _ => ?_
  refine Blind.bind (.modifyBus ?_ ?_) fun _ => ?_
  · intro rom bus
    rfl
  · intro bus
    rfl
  refine (Blind.of_built (built_callTo _)).bind fun _ => ?_
  exact .of_built (.modifyCpu _)

theorem blind_interrupt (source : Interrupt) : Blind (interrupt source) := by
  refine (Blind.of_built .cpu).bind fun _ => ?_
  refine blind_dueInterrupts.bind fun _ => .ite ?_ (.pure false)
  exact (blind_dispatch source).bind fun _ => .pure true

theorem blind_serveInterrupts : Blind serveInterrupts := by
  refine blind_dueInterrupts.bind fun due => ?_
  cases Interrupt.mostUrgent? due with
  | none => exact .pure ()
  | some source =>
      refine (Blind.of_built (.modifyCpu _)).bind fun _ => ?_
      exact (blind_interrupt source).bind fun _ => .pure ()

theorem blind_transfer : Blind transfer := by
  intro rom start covers
  have sameTransfer :
      (start.withRom rom).bus.transfer =
        { bus := start.bus.transfer.bus.withRom rom
          fault := start.bus.transfer.fault } :=
    Bus.transfer_withRom covers
  have sameFault := congrArg Bus.Transferred.fault sameTransfer
  have sameBus :
      (start.withRom rom).transferring = start.transferring.withRom rom :=
    congrArg
      (fun transferred : Bus.Transferred => start.withBus transferred.bus)
      sameTransfer
  have covered : Covers rom start.transferring.bus.cartridge :=
    covers.of_leads (Execution.leads_transferring start)
  rw [run_transfer_eq, run_transfer_eq, sameFault, sameBus]
  cases start.bus.transfer.fault with
  | none => exact ⟨rfl, covered⟩
  | some fault => exact ⟨rfl, covered⟩

theorem blind_step : Blind step := by
  refine (Blind.of_built .cpu).bind fun _ => ?_
  refine blind_advance.bind fun _ => ?_
  refine blind_serveInterrupts.bind fun _ => ?_
  refine blind_transfer.bind fun _ => ?_
  exact .of_built (.thenReturn .cpu)

end Action

namespace Machine

variable
  {machine : Machine}
  (covers : Covers rom machine.bus.cartridge)
include covers

/-- A blind action comes to the same over either ROM. -/
theorem perform_withRom
    {α : Type}
    {action : Action α}
    (blind : action.Blind) :
    (machine.withRom rom).perform action =
        Outcome.withRom rom (machine.perform action) ∧
      Covers rom
        (Outcome.execution (machine.perform action)).bus.cartridge :=
  blind rom (.start machine) covers

/-- So does a run, for an observer to whom outcomes over either ROM look the same. -/
theorem runWhile_withRom
    {σ : Type}
    {observe : Outcome UInt64 → σ → σ}
    (unseeing :
      ∀ outcome observed,
        observe (Outcome.withRom rom outcome) observed =
          observe outcome observed)
    (bound : UInt64)
    (allowance : Nat)
    (observed : σ) :
    let run := machine.runWhile bound observe allowance observed
    (machine.withRom rom).runWhile bound observe allowance observed =
        { run with machine := run.machine.withRom rom } ∧
      Covers rom run.machine.bus.cartridge := by
  induction allowance generalizing machine observed with
  | zero => exact ⟨rfl, covers⟩
  | succ allowance inductionHypothesis =>
      obtain ⟨exchanged, covered⟩ := perform_withRom covers Action.blind_step
      have sameCount :
          (machine.withRom rom).cpu.cycles = machine.cpu.cycles :=
        rfl
      dsimp only
      rw [runWhile, runWhile, sameCount]
      split
      case isFalse => exact ⟨rfl, covers⟩
      case isTrue =>
        -- Both machines take the step; what is observed then is the same as well.
        rw [step, exchanged, ← step]
        cases stepped : machine.step with
        | error fault execution =>
            rw [← step, stepped] at covered
            have sameView := unseeing (.error fault execution) observed
            exact ⟨congrArg (Run.mk _ _) sameView, covered⟩
        | ok cost execution =>
            rw [← step, stepped] at covered
            have sameView := unseeing (.ok cost execution) observed
            obtain ⟨resumed, stillCovered⟩ :=
              inductionHypothesis covered
                (observe (.ok cost execution) observed)
            refine ⟨Eq.trans ?_ resumed, stillCovered⟩
            exact congrArg
              (runWhile bound observe allowance
                (execution.toMachine.withRom rom))
              sameView

theorem runFor_withRom
    {σ : Type}
    {observe : Outcome UInt64 → σ → σ}
    (unseeing :
      ∀ outcome observed,
        observe (Outcome.withRom rom outcome) observed =
          observe outcome observed)
    (cycles : UInt64)
    (observed : σ) :
    let run := machine.runFor observe cycles observed
    (machine.withRom rom).runFor observe cycles observed =
        { run with machine := run.machine.withRom rom } ∧
      Covers rom run.machine.bus.cartridge :=
  runWhile_withRom covers unseeing _ _ observed

end Machine

end Dmg
