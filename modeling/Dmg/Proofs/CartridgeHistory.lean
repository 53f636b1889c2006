import Dmg.Proofs.CheckedAccess
import Dmg.Proofs.MemoryMap
import Dmg.Proofs.Session
import Dmg.Proofs.StepCost

namespace Dmg

/-!
# The cartridge of a machine

Whatever a machine executes and whatever is asked of it from outside, its cartridge
only goes through operations of its own: stores that the bus hands on, and the return
to the start.  So the banks stay in range on every machine that can be reached, and the
ROM windows show the bytes that the cartridge was made from.
-/

namespace Cartridge

/-- A cartridge is what some operations made of an earlier one. -/
def Leads (earlier later : Cartridge) : Prop :=
  ∃ operations, later = earlier.afterAll operations

namespace Leads

theorem refl (cartridge : Cartridge) : Leads cartridge cartridge :=
  ⟨[], rfl⟩

theorem one
    (cartridge : Cartridge)
    (operation : Operation) :
    Leads cartridge (cartridge.apply operation) :=
  ⟨[operation], rfl⟩

theorem trans
    {first second third : Cartridge}
    (before : Leads first second)
    (after : Leads second third) :
    Leads first third := by
  obtain ⟨firstOperations, rfl⟩ := before
  obtain ⟨secondOperations, rfl⟩ := after
  exact ⟨firstOperations ++ secondOperations, List.foldl_append.symm⟩

end Leads

end Cartridge

/-- A store through the bus is an operation of the cartridge, or passes it by. -/
theorem Bus.write_leads
    (bus : Bus)
    (address : UInt16)
    (value : UInt8) :
    bus.cartridge.Leads (bus.write address value).cartridge := by
  have placed := Location.ofAddress_at address
  unfold Bus.write
  cases location : Location.ofAddress address with
  | lowerRom offset => exact .one bus.cartridge (.control address value)
  | upperRom offset => exact .one bus.cartridge (.control address value)
  | cartridgeRam offset =>
      rw [location] at placed
      have place : address.toNat = 0xA000 + offset.val := placed
      have window : Cartridge.ramWindow.toNat = 0xA000 := rfl
      have inWindow : Cartridge.ramWindow ≤ address :=
        UInt16.le_iff_toNat_le.mpr (by omega)
      have written :
          bus.cartridge.writeRam offset.val value =
            bus.cartridge.writeRamAt address value := by
        unfold Cartridge.writeRamAt
        rw [if_pos inWindow, UInt16.toNat_sub_of_le _ _ inWindow, place,
          window, Nat.add_sub_cancel_left]
      dsimp only
      rw [written]
      exact .one bus.cartridge (.writeRam address value)
  | videoRam offset => exact .refl bus.cartridge
  | workRam offset => exact .refl bus.cartridge
  | objectMemory offset => exact .refl bus.cartridge
  | register registerAddress => exact .refl bus.cartridge
  | vacant => exact .refl bus.cartridge
  | highRam offset => exact .refl bus.cartridge
  | interruptEnable => exact .refl bus.cartridge

namespace Execution

/-- The cartridge that an execution leaves is what operations made of the one before. -/
def Leads (start final : Execution) : Prop :=
  start.bus.cartridge.Leads final.bus.cartridge

variable {start middle final : Execution}

theorem Leads.of_moves (moves : Moves start final) : start.Leads final := by
  induction moves with
  | refl => exact .refl _
  | tail _ move inductionHypothesis =>
      cases move with
      | registers => exact inductionHypothesis
      | note => exact inductionHypothesis
      | store address value =>
          exact inductionHypothesis.trans (Bus.write_leads _ address value)

/-- A dispatch reaches the cartridge only by pushing the program counter. -/
theorem leads_offering
    (execution : Execution)
    (source : Interrupt) :
    execution.Leads (execution.offering source) := by
  unfold offering
  split
  · have called :
        (execution.acknowledging source).Leads
          ((execution.acknowledging source).calling source.vector) :=
      .of_moves (moves_calling _ source.vector)
    exact called
  · exact .refl _

theorem leads_serving (execution : Execution) :
    execution.Leads execution.serving := by
  unfold serving
  split
  · exact .refl _
  · exact leads_offering _ _

theorem leads_transferring (execution : Execution) :
    execution.Leads execution.transferring := by
  obtain ⟨bytes, page, transferred⟩ := execution.bus.transfer_frame
  unfold Leads transferring
  rw [withBus_bus, transferred]
  exact .refl _

/-- What follows the execution of an instruction in a step. -/
theorem leads_settling
    (execution : Execution)
    (cost : Nat) :
    execution.Leads (execution.elapsing cost).settling :=
  (leads_serving (execution.elapsing cost)).trans
    (leads_transferring (execution.elapsing cost).serving)

end Execution

theorem Action.step_leads (start : Execution) :
    Ensures step start
      (fun _ final => start.Leads final)
      (fun _ final => start.Leads final) := by
  rw [ensures_step]
  refine (executeOrIdle_moving start).mono ?_ ?_
  · rintro cost middle ⟨moves, -⟩
    have settled : start.Leads (middle.elapsing cost).settling :=
      (Execution.Leads.of_moves moves).trans (middle.leads_settling cost)
    dsimp only
    split
    · exact settled
    · exact settled
  · intro fault final moves
    exact .of_moves moves

namespace Session

theorem Next.leads
    {earlier later : Session}
    (next : Next earlier later) :
    earlier.machine.bus.cartridge.Leads later.machine.bus.cartridge := by
  cases next with
  | step => exact (Action.step_leads (.start earlier.machine)).execution
  | poke address value => exact Bus.write_leads _ address value
  | press pressed => exact .refl _
  | request source => exact .refl _
  | interrupt source =>
      have offered :=
        Execution.leads_offering (.start earlier.machine) source
      rw [← Machine.execution_interrupt] at offered
      exact offered
  | transfer =>
      have transferred :=
        Execution.leads_transferring (.start earlier.machine)
      rw [← Machine.execution_transfer] at transferred
      exact transferred

theorem Later.leads
    {earlier later : Session}
    (runs : Later earlier later) :
    earlier.machine.bus.cartridge.Leads later.machine.bus.cartridge := by
  induction runs with
  | refl => exact .refl _
  | tail _ next inductionHypothesis =>
      exact inductionHypothesis.trans next.leads

end Session

namespace Machine

/-- A machine that can be reached from power-on with a cartridge. -/
inductive Reachable (made : Cartridge) : Machine → Prop where
  | powerOn :
      Reachable made (.powerOn made)
  | call
      {machine : Machine}
      (reachable : Reachable made machine)
      (call : Call) :
      Reachable made ((Session.start machine).after call).machine
  | reset
      {machine : Machine}
      (reachable : Reachable made machine) :
      Reachable made machine.reset
  /-- The cartridge can be operated from outside the bus. -/
  | operate
      {machine : Machine}
      (reachable : Reachable made machine)
      (operation : Cartridge.Operation) :
      Reachable made
        { machine with
          bus :=
            { machine.bus with
              cartridge := machine.bus.cartridge.apply operation } }
  /-- Everything beside the cartridge can be set from outside. -/
  | set
      {machine : Machine}
      (reachable : Reachable made machine)
      {later : Machine}
      (sameCartridge : later.bus.cartridge = machine.bus.cartridge) :
      Reachable made later

/-- The cartridge of a machine that can be reached is what operations made of the new one. -/
theorem Reachable.leads
    {made : Cartridge}
    {machine : Machine}
    (reachable : Reachable made machine) :
    made.Leads machine.bus.cartridge := by
  induction reachable with
  | powerOn => exact .refl made
  | call _ call inductionHypothesis =>
      exact inductionHypothesis.trans (Session.later_after _ call).leads
  | reset _ inductionHypothesis =>
      exact inductionHypothesis.trans (.one _ .resetBanking)
  | operate _ operation inductionHypothesis =>
      exact inductionHypothesis.trans (.one _ operation)
  | set _ sameCartridge inductionHypothesis =>
      rwa [sameCartridge]

end Machine

/-- The upper ROM window leads to the bank that the controller selects. -/
theorem Location.ofAddress_upperRom
    {offset : Nat}
    (inWindow : offset < Cartridge.romBankSize) :
    ofAddress (UInt16.ofNat (0x4000 + offset)) =
      .upperRom ⟨offset, inWindow⟩ := by
  have bound : offset < 0x4000 := inWindow
  have place : (UInt16.ofNat (0x4000 + offset)).toNat = 0x4000 + offset :=
    UInt16.toNat_ofNat_of_lt' (by
      have size : UInt16.size = 0x10000 := rfl
      omega)
  exact (ofAddress_at _).unique place

namespace Cartridge.MadeFrom

variable
  {original : Array UInt8}
  {made : Cartridge}

/-- The upper ROM window shows the original bytes of the selected bank. -/
theorem read_upperRom
    (madeFrom : MadeFrom original made)
    {bus : Bus}
    (keeps : Keeps made bus.cartridge)
    {offset : Nat}
    (inWindow : offset < romBankSize) :
    bus.read (UInt16.ofNat (0x4000 + offset)) =
      .ok
        (original.getD
          (bus.cartridge.romBank * romBankSize + offset) 0) := by
  unfold Bus.read
  rw [Location.ofAddress_upperRom inWindow, ← madeFrom.romByte,
    ← keeps.rom]
  rfl

/--
A cartridge that was loaded, filled up or left blank keeps its ROM and its sizes and
shows only banks that it has, whatever is done to it.  On a machine with that cartridge
the upper ROM window shows the original bytes of the bank in view, and no access of the
bus has an index out of bounds or a divisor of zero.
-/
theorem banks_in_range (madeFrom : MadeFrom original made) :
    (∀ operations,
      Keeps made (made.afterAll operations) ∧
        (made.afterAll operations).InRange) ∧
      ∀ machine, Machine.Reachable made machine →
        Keeps made machine.bus.cartridge ∧
          machine.bus.cartridge.InRange ∧
          (∀ offset, offset < romBankSize →
            machine.bus.read (UInt16.ofNat (0x4000 + offset)) =
              .ok
                (original.getD
                  (machine.bus.cartridge.romBank * romBankSize + offset)
                  0)) ∧
          (∀ address,
            machine.bus.read? address =
              some (machine.bus.read address)) ∧
          ∀ address value,
            machine.bus.write? address value =
              some (machine.bus.write address value) := by
  have shaped := Shaped.of_madeFrom madeFrom
  constructor
  · intro operations
    have keeps := Keeps.afterAll made operations
    exact ⟨keeps, (shaped.of_keeps keeps).inRange⟩
  · intro machine reachable
    obtain ⟨operations, operated⟩ := reachable.leads
    have keeps : Keeps made machine.bus.cartridge := by
      rw [operated]
      exact .afterAll made operations
    have stillShaped := shaped.of_keeps keeps
    exact
      ⟨keeps, stillShaped.inRange,
        fun _ inWindow => madeFrom.read_upperRom keeps inWindow,
        fun address => Bus.read?_eq stillShaped address,
        fun address value => Bus.write?_eq stillShaped address value⟩

end Cartridge.MadeFrom

namespace Cartridge

/-- Zeros behind a header change none of its bytes. -/
theorem byte_headed
    (header : Image)
    (count address : Nat) :
    Header.byte (header ++ Array.replicate count 0) address =
      Header.byte header address := by
  rw [Header.byte, getD_append_zeros]
  rfl

section Headed

variable
  {header : Image}
  (isHeader : header.size = Header.size)
include isHeader

/-- Zeros behind a header add no logo and hide none. -/
theorem hasLogo_headed (count : Nat) :
    Header.hasLogo (header ++ Array.replicate count 0) =
      Header.hasLogo header := by
  have inHeader :
      (header ++ Array.replicate count 0).extract Header.logoAddress
          (Header.logoAddress + Header.logo.length) =
        header.extract Header.logoAddress
          (Header.logoAddress + Header.logo.length) := by
    have endsBefore :
        Header.logoAddress + Header.logo.length - Header.size = 0 :=
      rfl
    rw [Array.extract_append, isHeader, endsBefore]
    simp
  rw [Header.hasLogo, Header.bytes, inHeader]
  rfl

/-- A sound header with zeros behind it, up to the banks that it declares, is loaded. -/
theorem load_headed
    {banks : Nat}
    {layout : Header.RamLayout}
    {controller : Controller}
    (logo : Header.hasLogo header = true)
    (rom : Header.romBanks? (Header.romSizeCode header) = some banks)
    (ram : Header.ramLayout? (Header.ramSizeCode header) = some layout)
    (kind : checkKind header = .ok controller) :
    let image :=
      header ++ Array.replicate (banks * romBankSize - Header.size) 0
    load image = .ok (ofChecked image banks layout controller) := by
  intro image
  have sameByte (address : Nat) :
      Header.byte image address = Header.byte header address :=
    byte_headed header _ address
  have twoBanks := Header.two_le_romBanks rom
  have size : image.size = banks * romBankSize := by
    rw [Array.size_append, Array.size_replicate, isHeader]
    simp only [Header.size, romBankSize]
    omega
  have romChecked : checkRom image = .ok banks := by
    rw [checkRom_eq_ok_iff, Header.romSizeCode, sameByte, size]
    exact ⟨rom, Nat.mul_div_cancel banks (by decide)⟩
  have ramChecked : checkRam image = .ok layout := by
    rw [checkRam_eq_ok_iff, Header.ramSizeCode, sameByte]
    exact ram
  have kindChecked : checkKind image = .ok controller := by
    rw [checkKind, Header.kindCode, sameByte]
    exact kind
  have long : Header.size ≤ image.size := by
    rw [size]
    simp only [Header.size, romBankSize]
    omega
  exact load_eq_ok_iff.mpr
    ⟨long, (hasLogo_headed isHeader _).trans logo, _, _, _, romChecked,
      ramChecked, kindChecked, rfl⟩

end Headed

/-- A header that declares an MBC1 controller, 72 ROM banks and 4 RAM banks. -/
def bankedHeader : Image :=
  (List.replicate Header.logoAddress 0 ++ Header.logo ++
    List.replicate 0x13 0 ++ [0x01, 0x52, 0x03] ++
    List.replicate 6 0).toArray

theorem size_bankedHeader : bankedHeader.size = Header.size := by
  decide +kernel

theorem lt_size_bankedHeader : 0x0148 < bankedHeader.size := by
  rw [size_bankedHeader]
  decide

/-- The same header with another code of the ROM size. -/
def declaring (romSizeCode : UInt8) : Image :=
  bankedHeader.setIfInBounds 0x0148 romSizeCode

theorem romSizeCode_declaring (code : UInt8) :
    Header.romSizeCode (declaring code) = code := by
  rw [Header.romSizeCode, Header.byte, declaring,
    Array.getD_eq_getD_getElem?,
    Array.getElem?_setIfInBounds_self_of_lt lt_size_bankedHeader,
    Option.getD_some]

/-- No other byte of the header is changed. -/
theorem byte_declaring
    (code : UInt8)
    {address : Nat}
    (other : address ≠ 0x0148) :
    Header.byte (declaring code) address =
      Header.byte bankedHeader address := by
  rw [Header.byte, Header.byte, declaring, Array.getD_eq_getD_getElem?,
    Array.getD_eq_getD_getElem?,
    Array.getElem?_setIfInBounds_ne (Ne.symm other)]

/-- The logo is not changed either, as the code of the ROM size lies behind it. -/
theorem hasLogo_declaring (code : UInt8) :
    Header.hasLogo (declaring code) = true := by
  have behind :
      ¬ 0x0148 <
        min (Header.logoAddress + Header.logo.length) bankedHeader.size := by
    rw [size_bankedHeader]
    decide
  have logo :
      Header.bytes (declaring code) Header.logoAddress
          Header.logo.length =
        Header.logo := by
    rw [Header.bytes, declaring, Array.setIfInBounds,
      dif_pos lt_size_bankedHeader, Array.extract_set,
      dif_neg (by decide), dif_neg behind]
    decide +kernel
  rw [Header.hasLogo, logo, beq_self_eq_true]

/-- With every code of a ROM size the header makes a cartridge of so many banks. -/
theorem load_declaring
    {code : UInt8}
    {banks : Nat}
    (declared : Header.romBanks? code = some banks) :
    let image :=
      declaring code ++
        Array.replicate (banks * romBankSize - Header.size) 0
    load image =
      .ok (ofChecked image banks ⟨4, 0x8000⟩ (.mbc1 .powerOn)) := by
  have isHeader : (declaring code).size = Header.size := by
    rw [declaring, Array.size_setIfInBounds, size_bankedHeader]
  have rom :
      Header.romBanks? (Header.romSizeCode (declaring code)) =
        some banks := by
    rw [romSizeCode_declaring, declared]
  have ram :
      Header.ramLayout? (Header.ramSizeCode (declaring code)) =
        some ⟨4, 0x8000⟩ := by
    rw [Header.ramSizeCode, byte_declaring code (by decide)]
    decide +kernel
  have isBanked : Header.byte bankedHeader 0x0147 = 0x01 := by
    decide +kernel
  have kind : checkKind (declaring code) = .ok (.mbc1 .powerOn) := by
    rw [checkKind, Header.kindCode, byte_declaring code (by decide),
      isBanked]
    rfl
  exact load_headed isHeader (hasLogo_declaring code) rom ram kind

/-- An image of 72 banks: a header, then zeros. -/
def seventyTwoBanks : Image :=
  bankedHeader ++ Array.replicate (72 * romBankSize - Header.size) 0

theorem byte_seventyTwoBanks (address : Nat) :
    Header.byte seventyTwoBanks address =
      Header.byte bankedHeader address :=
  byte_headed bankedHeader _ address

theorem load_seventyTwoBanks :
    load seventyTwoBanks =
      .ok (ofChecked seventyTwoBanks 72 ⟨4, 0x8000⟩ (.mbc1 .powerOn)) := by
  have unchanged : declaring 0x52 = bankedHeader :=
    Array.ext' (by decide +kernel)
  have loaded :=
    load_declaring (show Header.romBanks? 0x52 = some 72 from rfl)
  rwa [unchanged] at loaded

/--
On a cartridge of 72 banks the selector 71 shows the last bank, up to its last byte,
and the selector 72 wraps onto bank 0 and so shows bank 1.
-/
theorem banks_in_range_seventyTwoBanks :
    ∃ made,
      load seventyTwoBanks = .ok made ∧
        (made.afterAll [.control 0x2000 72]).InRange ∧
        (made.afterAll [.control 0x2000 72]).romBank = 1 ∧
        ((Session.start (.powerOn made)).after
            (.poke 0x2000 71)).machine.bus.read 0x7FFF =
          .ok (seventyTwoBanks.getD (71 * romBankSize + 0x3FFF) 0) := by
  have inRange :=
    MadeFrom.banks_in_range (.load load_seventyTwoBanks)
  have shown :=
    (inRange.2 _ (Machine.Reachable.powerOn.call (.poke 0x2000 71))).2.2.1
      0x3FFF (by decide)
  exact
    ⟨_, load_seventyTwoBanks, (inRange.1 [.control 0x2000 72]).2, rfl,
      shown⟩

end Cartridge

end Dmg
