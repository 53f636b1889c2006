import Dmg.Proofs.RamHistory
import Dmg.Proofs.StepStages

namespace Dmg

/-!
# A reset is a fresh start

Nothing that is done to a cartridge changes more of it than RAM bytes and the registers of
its controller, and the kind of the controller stays.  So a reset, which returns those
registers to their state at power-on, gives the machine that is started with the new
cartridge, but for the bytes of its RAM.
-/

namespace Controller

@[simp] theorem reset_write
    (address : UInt16)
    (value : UInt8)
    (controller : Controller) :
    (controller.write address value).reset = controller.reset := by
  cases controller <;> rfl

@[simp] theorem reset_reset (controller : Controller) :
    controller.reset.reset = controller.reset := by
  cases controller <;> rfl

end Controller

namespace Cartridge

/-- The cartridge with other RAM bytes. -/
def withRam
    (cartridge : Cartridge)
    (ram : Array UInt8) :
    Cartridge :=
  { cartridge with ram := ram }

/-- A store into the RAM changes nothing else. -/
theorem setRam_withRam
    (cartridge : Cartridge)
    (offset : Nat)
    (value : UInt8) :
    cartridge.setRam offset value =
      cartridge.withRam (cartridge.setRam offset value).ram := by
  unfold setRam
  split
  · rfl
  · rfl

theorem writeRamAt_withRam
    (cartridge : Cartridge)
    (address : UInt16)
    (value : UInt8) :
    cartridge.writeRamAt address value =
      cartridge.withRam (cartridge.writeRamAt address value).ram := by
  unfold writeRamAt writeRam
  split
  · split
    · exact cartridge.setRam_withRam _ value
    · rfl
  · rfl

/-- What is left of an operation after a reset is what it did to the RAM. -/
theorem resetBanking_apply
    (cartridge : Cartridge)
    (operation : Operation) :
    (cartridge.apply operation).resetBanking =
      cartridge.resetBanking.withRam (cartridge.apply operation).ram := by
  cases operation with
  | control address value =>
      simp [apply, writeControl, resetBanking, withRam]
  | writeRam address value =>
      exact congrArg resetBanking
        (cartridge.writeRamAt_withRam address value)
  | setRam offset value =>
      exact congrArg resetBanking (cartridge.setRam_withRam offset value)
  | resetBanking => simp [apply, resetBanking, withRam]

/-- After any number of operations, too. -/
theorem resetBanking_afterAll
    (cartridge : Cartridge)
    (operations : List Operation) :
    (cartridge.afterAll operations).resetBanking =
      cartridge.resetBanking.withRam (cartridge.afterAll operations).ram := by
  induction operations generalizing cartridge with
  | nil => rfl
  | cons operation rest inductionHypothesis =>
      have later := inductionHypothesis (cartridge.apply operation)
      rw [resetBanking_apply] at later
      exact later

/-- The registers of a new cartridge are as at power-on. -/
theorem MadeFrom.resetBanking_eq
    {original : Array UInt8}
    {made : Cartridge}
    (madeFrom : MadeFrom original made) :
    made.resetBanking = made := by
  cases madeFrom with
  | blank => rfl
  | ofBytes => rfl
  | load loaded =>
      obtain ⟨-, -, banks, layout, controller, -, -, kindChecked, rfl⟩ :=
        load_eq_ok_iff.mp loaded
      have fresh : controller.reset = controller := by
        unfold checkKind at kindChecked
        dsimp only at kindChecked
        split at kindChecked
        · cases kindChecked
          rfl
        · split at kindChecked
          · cases kindChecked
            rfl
          · cases kindChecked
      simp [resetBanking, ofChecked, fresh]

end Cartridge

namespace Machine

/--
Whatever a machine has gone through since power-on with a new cartridge, the calls that
ended in a fault included, a reset gives the machine at power-on with that cartridge and
the RAM bytes as they are now.  The RAM has the size that it was made with, and the
machine that is reset goes through any further calls as the new machine does.
-/
theorem reset_is_fresh_start
    {original : Array UInt8}
    {made : Cartridge}
    {machine : Machine}
    (madeFrom : Cartridge.MadeFrom original made)
    (reachable : Reachable made machine) :
    let fresh := powerOn (made.withRam machine.bus.cartridge.ram)
    machine.reset = fresh ∧
      machine.bus.cartridge.ram.size = made.ram.size ∧
      ∀ calls,
        (Session.start machine.reset).afterAll calls =
          (Session.start fresh).afterAll calls := by
  intro fresh
  obtain ⟨operations, operated⟩ := reachable.leads
  have isFresh : machine.reset = fresh := by
    have restored := made.resetBanking_afterAll operations
    rw [← operated, madeFrom.resetBanking_eq] at restored
    exact congrArg powerOn restored
  have sameSize : machine.bus.cartridge.ram.size = made.ram.size := by
    rw [operated]
    exact (Cartridge.Keeps.afterAll made operations).ramSize
  refine ⟨isFresh, sameSize, ?_⟩
  intro calls
  rw [isFresh]

/-- A cartridge of 72 ROM banks and 4 RAM banks, as it is loaded. -/
def bankedCartridge : Cartridge :=
  .ofChecked Cartridge.seventyTwoBanks 72 ⟨4, 0x8000⟩ (.mbc1 .powerOn)

/-- A machine that enabled the RAM, stored a byte there and selected another bank. -/
def afterBankedStore : Machine :=
  ((Session.start (.powerOn bankedCartridge)).afterAll
    [.poke 0x0000 0x0A, .poke 0xA000 0x5A, .poke 0x2000 0x47]).machine

/-- The stored byte is the first of the RAM. -/
theorem ram_afterBankedStore :
    afterBankedStore.bus.cartridge.ram[0]? = some 0x5A := by
  have sameStore :
      (bankedCartridge.writeControl 0x0000 0x0A).writeRam 0 0x5A =
        (bankedCartridge.writeControl 0x0000 0x0A).writeRamAt 0xA000 0x5A :=
    (if_pos (by decide)).symm
  have operated :
      afterBankedStore.bus.cartridge =
        bankedCartridge.afterAll
          [.control 0x0000 0x0A, .writeRam 0xA000 0x5A,
            .control 0x2000 0x47] :=
    congrArg (·.writeControl 0x2000 0x47) sameStore
  have hasPlace : bankedCartridge.HasPlace ⟨0, 0⟩ := by
    have size : bankedCartridge.ram.size = 0x8000 := Array.size_replicate
    rw [Cartridge.HasPlace, size]
    decide
  have latest :
      bankedCartridge.latestStore? ⟨0, 0⟩
          [.control 0x0000 0x0A, .writeRam 0xA000 0x5A,
            .control 0x2000 0x47] =
        some 0x5A := by
    decide +kernel
  have stored :=
    Cartridge.afterAll_byte hasPlace
      [.control 0x0000 0x0A, .writeRam 0xA000 0x5A, .control 0x2000 0x47]
  rw [← operated, latest] at stored
  exact stored

/-- That machine at an address that no register answers. -/
def atUnanswered : Machine :=
  { afterBankedStore with
    cpu := { afterBankedStore.cpu with pc := 0xFF03, ime := true } }

/-- After the fault of its next step the machine starts again with the stored byte. -/
theorem reset_is_fresh_start_atUnanswered :
    ∃ final,
      atUnanswered.step =
          .error (.unimplementedRegister 0xFF03) final ∧
        final.bus.cartridge.ram[0]? = some 0x5A ∧
        final.toMachine.reset =
          powerOn (bankedCartridge.withRam final.bus.cartridge.ram) := by
  have failed :
      atUnanswered.step =
        .error (.unimplementedRegister 0xFF03)
          ((Execution.start atUnanswered).noting (.fetch 0xFF03)) :=
    step_of_not_executes rfl
  have reachable :
      Reachable bankedCartridge
        ((Session.start atUnanswered).after .step).machine := by
    have poked : Reachable bankedCartridge afterBankedStore :=
      ((Reachable.powerOn.call (.poke 0x0000 0x0A)).call
        (.poke 0xA000 0x5A)).call (.poke 0x2000 0x47)
    have moved : Reachable bankedCartridge atUnanswered := .set poked rfl
    exact moved.call .step
  obtain ⟨isFresh, -⟩ :=
    reset_is_fresh_start (.load Cartridge.load_seventyTwoBanks) reachable
  have left :
      ((Session.start atUnanswered).after .step).machine = _ :=
    congrArg (Execution.toMachine ∘ Outcome.execution) failed
  rw [left] at isFresh
  exact ⟨_, failed, ram_afterBankedStore, isFresh⟩

end Machine

end Dmg
