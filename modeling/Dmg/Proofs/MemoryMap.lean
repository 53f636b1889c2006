import Dmg.Bus.View
import Dmg.Proofs.CartridgeRam
import Dmg.Proofs.RegisterPage

namespace Dmg

/-!
# Reading back what was written

The bus is a store in which the last write wins.  Two addresses share a byte only
when one is the echo of the other; writing an address leaves what every other reads
as alone.  What the written address itself reads as is said range by range.  A write
below 0x8000 reaches no byte at all, only the registers of the cartridge's controller.
-/

namespace Location

/-- The addresses, as numbers, that lead to a location. -/
def At (place : Nat) : Location → Prop
  | .lowerRom offset => place = offset.val
  | .upperRom offset => place = 0x4000 + offset.val
  | .videoRam offset => place = 0x8000 + offset.val
  | .cartridgeRam offset => place = 0xA000 + offset.val
  | .workRam offset =>
      place = 0xC000 + offset.val ∨
        place = 0xE000 + offset.val ∧ offset.val < 0x1E00
  | .objectMemory offset => place = 0xFE00 + offset.val
  | .register address =>
      place = address.toNat ∧ 0xFF00 ≤ place ∧ place < 0xFF4C
  | .vacant =>
      0xFEA0 ≤ place ∧ place < 0xFF00 ∨ 0xFF4C ≤ place ∧ place < 0xFF80
  | .highRam offset => place = 0xFF80 + offset.val
  | .interruptEnable => place = 0xFFFF

/-- An address is one of those that lead to its location. -/
theorem ofAddress_at (address : UInt16) :
    (ofAddress address).At address.toNat := by
  have bound := address.toNat_lt
  unfold ofAddress
  dsimp only
  by_cases inLowerRom : address.toNat < 0x4000
  · rw [dif_pos inLowerRom]
    rfl
  rw [dif_neg inLowerRom]
  by_cases inUpperRom : address.toNat < 0x8000
  · rw [dif_pos inUpperRom]
    dsimp only [At]
    omega
  rw [dif_neg inUpperRom]
  by_cases inVideoRam : address.toNat < 0xA000
  · rw [dif_pos inVideoRam]
    dsimp only [At]
    omega
  rw [dif_neg inVideoRam]
  by_cases inCartridgeRam : address.toNat < 0xC000
  · rw [dif_pos inCartridgeRam]
    dsimp only [At]
    omega
  rw [dif_neg inCartridgeRam]
  by_cases inWorkRam : address.toNat < 0xE000
  · rw [dif_pos inWorkRam]
    dsimp only [At]
    omega
  rw [dif_neg inWorkRam]
  by_cases inEcho : address.toNat < 0xFE00
  · rw [dif_pos inEcho]
    dsimp only [At]
    omega
  rw [dif_neg inEcho]
  by_cases inObjectMemory : address.toNat < 0xFEA0
  · rw [dif_pos inObjectMemory]
    dsimp only [At]
    omega
  rw [dif_neg inObjectMemory]
  by_cases inFirstGap : address.toNat < 0xFF00
  · rw [if_pos inFirstGap]
    dsimp only [At]
    omega
  rw [if_neg inFirstGap]
  by_cases inPage : address.toNat < 0xFF4C
  · rw [if_pos inPage]
    dsimp only [At]
    omega
  rw [if_neg inPage]
  by_cases inSecondGap : address.toNat < 0xFF80
  · rw [if_pos inSecondGap]
    dsimp only [At]
    omega
  rw [if_neg inSecondGap]
  by_cases inHighRam : address.toNat < 0xFFFF
  · rw [dif_pos inHighRam]
    dsimp only [At]
    omega
  rw [dif_neg inHighRam]
  dsimp only [At]
  omega

/-- No address leads to two locations. -/
theorem At.unique
    {place : Nat}
    {first second : Location}
    (firstAt : first.At place)
    (secondAt : second.At place) :
    first = second := by
  cases first <;> cases second <;>
    simp only [At] at firstAt secondAt <;>
    first
      | rfl
      | omega
      | exact congrArg _ (Fin.ext (by omega))
      | exact congrArg _ (UInt16.toNat_inj.mp (by omega))

/-- Outside the echo and the gaps, an address can be told from its location. -/
theorem At.place_unique
    {first second : Nat}
    {location : Location}
    (occupied : location ≠ .vacant)
    (firstAt : location.At first)
    (secondAt : location.At second)
    (firstOutside : first < 0xE000 ∨ 0xFE00 ≤ first)
    (secondOutside : second < 0xE000 ∨ 0xFE00 ≤ second) :
    first = second := by
  cases location with
  | vacant => exact (occupied rfl).elim
  | workRam offset =>
      simp only [At] at firstAt secondAt
      omega
  | register address => exact firstAt.1.trans secondAt.1.symm
  | _ => exact Eq.trans firstAt (Eq.symm secondAt)

end Location

namespace Bus

/-- The address that an echo stands for; every other address stands for itself. -/
def canonical (address : UInt16) : UInt16 :=
  if 0xE000 ≤ address ∧ address ≤ 0xFDFF then
    address - 0x2000
  else
    address

/-- An echo lies 0x2000 above its canonical address. -/
theorem canonical_toNat (address : UInt16) :
    0xE000 ≤ address.toNat ∧ address.toNat < 0xFE00 ∧
        (canonical address).toNat + 0x2000 = address.toNat ∨
      (address.toNat < 0xE000 ∨ 0xFE00 ≤ address.toNat) ∧
        canonical address = address := by
  unfold canonical
  by_cases inEcho : 0xE000 ≤ address ∧ address ≤ 0xFDFF
  · rw [if_pos inEcho]
    have lower : 0xE000 ≤ address.toNat :=
      UInt16.le_iff_toNat_le.mp inEcho.1
    have upper : address.toNat ≤ 0xFDFF :=
      UInt16.le_iff_toNat_le.mp inEcho.2
    have moved : (address - 0x2000).toNat = address.toNat - 0x2000 :=
      UInt16.toNat_sub_of_le _ _
        (UInt16.le_iff_toNat_le.mpr
          (show 0x2000 ≤ address.toNat by omega))
    exact .inl ⟨lower, by omega, by omega⟩
  · rw [if_neg inEcho]
    have outside : ¬ (0xE000 ≤ address.toNat ∧ address.toNat ≤ 0xFDFF) :=
      fun inside =>
        inEcho
          ⟨UInt16.le_iff_toNat_le.mpr inside.1,
            UInt16.le_iff_toNat_le.mpr inside.2⟩
    exact .inr ⟨by omega, rfl⟩

theorem ofAddress_canonical (address : UInt16) :
    Location.ofAddress (canonical address) = Location.ofAddress address := by
  rcases canonical_toNat address with ⟨lower, upper, echo⟩ | ⟨-, itself⟩
  · have here := Location.ofAddress_at address
    apply (Location.ofAddress_at (canonical address)).unique
    cases location : Location.ofAddress address <;>
      rw [location] at here <;>
      simp only [Location.At] at here ⊢ <;>
      omega
  · rw [itself]

theorem canonical_outside_echo (address : UInt16) :
    (canonical address).toNat < 0xE000 ∨
      0xFE00 ≤ (canonical address).toNat := by
  rcases canonical_toNat address with ⟨-, upper, echo⟩ | ⟨plain, itself⟩
  · exact .inl (by omega)
  · rw [itself]
    exact plain

/-- Addresses that lead to the same place, other than a gap, have one canonical address. -/
theorem canonical_eq_of_ofAddress_eq
    {first second : UInt16}
    (same : Location.ofAddress first = Location.ofAddress second)
    (occupied : Location.ofAddress second ≠ .vacant) :
    canonical first = canonical second := by
  have firstAt := Location.ofAddress_at (canonical first)
  have secondAt := Location.ofAddress_at (canonical second)
  rw [ofAddress_canonical] at firstAt secondAt
  rw [same] at firstAt
  exact UInt16.toNat_inj.mp
    (firstAt.place_unique occupied secondAt
      (canonical_outside_echo first) (canonical_outside_echo second))

/-- The places in the gaps between the memories, where nothing answers. -/
def Vacant (place : Nat) : Prop :=
  0xFEA0 ≤ place ∧ place ≤ 0xFEFF ∨ 0xFF4C ≤ place ∧ place ≤ 0xFF7F

/-- The places on the register page at which no register can be read. -/
def Unanswered (place : Nat) : Prop :=
  place = 0xFF03 ∨
    0xFF08 ≤ place ∧ place ≤ 0xFF0E ∨
    0xFF10 ≤ place ∧ place ≤ 0xFF3F

instance : DecidablePred Vacant :=
  fun _ => inferInstanceAs (Decidable (_ ∨ _))

instance : DecidablePred Unanswered :=
  fun _ => inferInstanceAs (Decidable (_ ∨ _))

/--
The four input lines of the joypad: a line is clear if a pressed button lies on it
whose column is selected, that is, has a clear select bit.
-/
def selectedLines (select pressed : UInt8) : UInt8 :=
  let directions := if select &&& 0x10 = 0 then pressed else 0
  let actions := if select &&& 0x20 = 0 then pressed >>> 4 else 0
  ~~~(directions ||| actions) &&& 0x0F

/-- What an address from 0x8000 on reads as after a value has been written there. -/
def readBack
    (bus : Bus)
    (address : UInt16)
    (value : UInt8) :
    Except Fault UInt8 :=
  let place := address.toNat
  if 0xA000 ≤ place ∧ place ≤ 0xBFFF then
    if bus.cartridge.RamAnswers (place - 0xA000) then
      .ok value
    else
      .ok 0xFF
  else if Vacant place then
    .ok 0xFF
  else if Unanswered place then
    .error (.unimplementedRegister address)
  else if place = 0xFF00 then
    .ok
      (0xC0 ||| value &&& 0x30 |||
        selectedLines value bus.peripherals.joypad.pressed)
  else if place = 0xFF04 ∨ place = 0xFF44 then
    .ok 0
  else
    .ok value

/-- A line of the joypad is clear if it is clear in either column. -/
theorem lines_and (directions actions : UInt8) :
    (~~~directions &&& 0x0F) &&& (~~~actions &&& 0x0F) =
      ~~~(directions ||| actions) &&& 0x0F := by
  apply UInt8.eq_of_toBitVec_eq
  ext index inRange
  simp only [UInt8.toBitVec_and, UInt8.toBitVec_or, UInt8.toBitVec_not,
    BitVec.getElem_and, BitVec.getElem_or, BitVec.getElem_not]
  grind

/-- A column that is not selected shows the lines of a column with nothing pressed. -/
theorem column_eq
    (select pressed : UInt8) :
    (if select = 0 then ~~~pressed &&& 0x0F else 0x0F) =
      ~~~(if select = 0 then pressed else 0) &&& 0x0F := by
  by_cases selected : select = 0
  · rw [if_pos selected, if_pos selected]
  · rw [if_neg selected, if_neg selected]
    rfl

/-- The joypad answers with the select bits as written and the lines that they connect. -/
theorem joypad_read_write
    (joypad : Joypad)
    (value : UInt8) :
    (joypad.write value).read =
      (0xC0 ||| value &&& 0x30 ||| selectedLines value joypad.pressed) := by
  have directionsBit : value &&& 0x30 &&& 0x10 = value &&& 0x10 := by
    rw [UInt8.and_assoc]
    rfl
  have actionsBit : value &&& 0x30 &&& 0x20 = value &&& 0x20 := by
    rw [UInt8.and_assoc]
    rfl
  have lines :
      (joypad.write value).directionLines &&&
          (joypad.write value).actionLines =
        selectedLines value joypad.pressed := by
    unfold Joypad.directionLines Joypad.actionLines selectedLines
      Joypad.write Joypad.selectDirections Joypad.selectActions
    dsimp only
    rw [directionsBit, actionsBit, column_eq, column_eq, lines_and]
  unfold Joypad.read
  rw [lines]
  rfl

/-- At the places where no register can be read, none is found or a sound register is. -/
theorem unanswered_iff
    {address : UInt16}
    (lower : 0xFF00 ≤ address.toNat)
    (upper : address.toNat < 0xFF4C) :
    Unanswered address.toNat ↔
      Peripherals.Register.ofAddress? address ∈ [none, some .sound] := by
  -- The page is small enough to look at every address.
  have everyOffset :
      ∀ offset : Fin 0x4C,
        Unanswered (UInt16.ofNat (0xFF00 + offset.val)).toNat ↔
          Peripherals.Register.ofAddress?
              (UInt16.ofNat (0xFF00 + offset.val)) ∈
            [none, some .sound] := by
    decide
  have here := everyOffset ⟨address.toNat - 0xFF00, by omega⟩
  rwa [show 0xFF00 + (address.toNat - 0xFF00) = address.toNat by omega,
    UInt16.ofNat_toNat] at here

/-- A store outside the register page and the cartridge is read back as it was made. -/
theorem readBack_memory
    {address : UInt16}
    (outsideCartridge : address.toNat < 0xA000 ∨ 0xC000 ≤ address.toNat)
    (occupied : ¬ Vacant address.toNat)
    (outsidePage : address.toNat < 0xFF00 ∨ 0xFF4C ≤ address.toNat)
    (bus : Bus)
    (value : UInt8) :
    bus.readBack address value = .ok value := by
  unfold readBack
  dsimp only
  rw [if_neg (by omega), if_neg occupied,
    if_neg (show ¬ Unanswered address.toNat by unfold Unanswered; omega),
    if_neg (by omega), if_neg (by omega)]

/-- What a store on the register page is read back as. -/
theorem readBack_page
    {address : UInt16}
    (lower : 0xFF00 ≤ address.toNat)
    (upper : address.toNat < 0xFF4C)
    (bus : Bus)
    (value : UInt8) :
    (bus.peripherals.write address value).read address =
      bus.readBack address value := by
  have outsideCartridge :
      ¬ (0xA000 ≤ address.toNat ∧ address.toNat ≤ 0xBFFF) := by
    omega
  have occupied : ¬ Vacant address.toNat := by
    unfold Vacant
    omega
  have unanswered := unanswered_iff lower upper
  unfold readBack Peripherals.write Peripherals.read
  dsimp only
  rw [if_neg outsideCartridge, if_neg occupied]
  cases found : Peripherals.Register.ofAddress? address with
  | none =>
      rw [found] at unanswered
      rw [if_pos (unanswered.mpr (by decide))]
      rfl
  | some register =>
      rw [found] at unanswered
      by_cases isSound : register = .sound
      · subst isSound
        rw [if_pos (unanswered.mpr (by decide))]
        rfl
      · have answered : ¬ Unanswered address.toNat := by
          rw [unanswered]
          simpa using isSound
        rw [if_neg answered]
        have home :=
          Peripherals.Register.address?_of_ofAddress? found isSound
        cases register with
        | sound => exact (isSound rfl).elim
        | speedSwitch =>
            cases home
            exact absurd upper (by decide)
        | joypad =>
            cases home
            exact congrArg Except.ok
              (joypad_read_write bus.peripherals.joypad value)
        | timer timerRegister =>
            cases timerRegister <;> cases home <;> rfl
        | lcd lcdRegister =>
            cases lcdRegister <;> cases home <;> rfl
        | _ =>
            cases home
            rfl

theorem get_set_same
    {size : Nat}
    (memory : Vector UInt8 size)
    (offset : Fin size)
    (value : UInt8) :
    (memory.set offset.val value offset.isLt).get offset = value :=
  Vector.getElem_set_self offset.isLt

theorem get_set_other
    {size : Nat}
    {stored offset : Fin size}
    (different : offset ≠ stored)
    (memory : Vector UInt8 size)
    (value : UInt8) :
    (memory.set stored.val value stored.isLt).get offset =
      memory.get offset :=
  Vector.getElem_set_ne stored.isLt offset.isLt
    fun same => different (Fin.ext same.symm)

/-- An address from 0x8000 on reads back what the table of written addresses says. -/
theorem read_write_same
    {address : UInt16}
    (outsideRom : 0x8000 ≤ address.toNat)
    (bus : Bus)
    (value : UInt8) :
    (bus.write address value).read address =
      bus.readBack address value := by
  have here := Location.ofAddress_at address
  unfold write read
  cases location : Location.ofAddress address with
  | lowerRom offset =>
      simp only [location, Location.At] at here
      omega
  | upperRom offset =>
      simp only [location, Location.At] at here
      omega
  | videoRam offset =>
      simp only [location, Location.At] at here
      rw [readBack_memory (by omega) (by unfold Vacant; omega) (by omega)]
      exact congrArg Except.ok (get_set_same bus.videoRam offset value)
  | cartridgeRam offset =>
      simp only [location, Location.At] at here
      have atOffset : address.toNat - 0xA000 = offset.val := by
        omega
      have readBack :
          bus.readBack address value =
            .ok (if bus.cartridge.RamAnswers offset.val then value
              else 0xFF) := by
        unfold Bus.readBack
        dsimp only
        rw [if_pos (by omega), atOffset]
        split <;> rfl
      rw [readBack]
      exact congrArg Except.ok
        (bus.cartridge.readRam_writeRam_same offset.val value)
  | workRam offset =>
      simp only [location, Location.At] at here
      rw [readBack_memory (by omega) (by unfold Vacant; omega) (by omega)]
      exact congrArg Except.ok (get_set_same bus.workRam offset value)
  | objectMemory offset =>
      simp only [location, Location.At] at here
      rw [readBack_memory (by omega) (by unfold Vacant; omega) (by omega)]
      exact congrArg Except.ok (get_set_same bus.objectMemory offset value)
  | register registerAddress =>
      simp only [location, Location.At] at here
      obtain ⟨same, lower, upper⟩ := here
      cases UInt16.toNat_inj.mp same
      exact readBack_page lower upper bus value
  | vacant =>
      simp only [location, Location.At] at here
      have readBack : bus.readBack address value = .ok 0xFF := by
        unfold Bus.readBack
        dsimp only
        rw [if_neg (by omega), if_pos (by unfold Vacant; omega)]
      rw [readBack]
      rfl
  | highRam offset =>
      simp only [location, Location.At] at here
      rw [readBack_memory (by omega) (by unfold Vacant; omega) (by omega)]
      exact congrArg Except.ok (get_set_same bus.highRam offset value)
  | interruptEnable =>
      simp only [location, Location.At] at here
      rw [readBack_memory (by omega) (by unfold Vacant; omega) (by omega)]
      rfl

/-- A store from 0x8000 on leaves what every other location reads as alone. -/
theorem readLocation_write_other
    {stored : UInt16}
    {location : Location}
    (outsideRom : 0x8000 ≤ stored.toNat)
    (different : location ≠ Location.ofAddress stored)
    (bus : Bus)
    (value : UInt8) :
    (bus.write stored value).readLocation location =
      bus.readLocation location := by
  have here := Location.ofAddress_at stored
  unfold write
  cases storedAt : Location.ofAddress stored with
  | lowerRom offset =>
      simp only [storedAt, Location.At] at here
      omega
  | upperRom offset =>
      simp only [storedAt, Location.At] at here
      omega
  | videoRam offset =>
      rw [storedAt] at different
      cases location with
      | videoRam other =>
          exact congrArg Except.ok
            (get_set_other
              (fun same => different (congrArg Location.videoRam same))
              bus.videoRam value)
      | _ => rfl
  | cartridgeRam offset =>
      rw [storedAt] at different
      have rom := bus.cartridge.rom_writeRam offset.val value
      cases location with
      | lowerRom other => exact congrArg Except.ok (congrFun rom.1 other.val)
      | upperRom other => exact congrArg Except.ok (congrFun rom.2 other.val)
      | cartridgeRam other =>
          exact congrArg Except.ok
            (Cartridge.readRam_writeRam_other
              (fun same =>
                different (congrArg Location.cartridgeRam (Fin.ext same)))
              bus.cartridge value)
      | _ => rfl
  | workRam offset =>
      rw [storedAt] at different
      cases location with
      | workRam other =>
          exact congrArg Except.ok
            (get_set_other
              (fun same => different (congrArg Location.workRam same))
              bus.workRam value)
      | _ => rfl
  | objectMemory offset =>
      rw [storedAt] at different
      cases location with
      | objectMemory other =>
          exact congrArg Except.ok
            (get_set_other
              (fun same => different (congrArg Location.objectMemory same))
              bus.objectMemory value)
      | _ => rfl
  | register registerAddress =>
      rw [storedAt] at different
      cases location with
      | register other =>
          exact Peripherals.read_write_other
            (fun same => different (congrArg Location.register same))
            bus.peripherals value
      | _ => rfl
  | vacant => rfl
  | highRam offset =>
      rw [storedAt] at different
      cases location with
      | highRam other =>
          exact congrArg Except.ok
            (get_set_other
              (fun same => different (congrArg Location.highRam same))
              bus.highRam value)
      | _ => rfl
  | interruptEnable =>
      rw [storedAt] at different
      cases location with
      | interruptEnable => exact (different rfl).elim
      | _ => rfl

/-- A store from 0x8000 on leaves the addresses with another canonical address alone. -/
theorem read_write_other
    {stored address : UInt16}
    (outsideRom : 0x8000 ≤ stored.toNat)
    (different : canonical address ≠ canonical stored)
    (bus : Bus)
    (value : UInt8) :
    (bus.write stored value).read address = bus.read address := by
  unfold read
  by_cases same : Location.ofAddress address = Location.ofAddress stored
  · by_cases vacant : Location.ofAddress stored = .vacant
    · rw [same, vacant]
      rfl
    · exact (different (canonical_eq_of_ofAddress_eq same vacant)).elim
  · exact readLocation_write_other outsideRom same bus value

/-- A store and its echo are the same store. -/
theorem write_canonical
    {address : UInt16}
    (outsideRom : 0x8000 ≤ address.toNat)
    (bus : Bus)
    (value : UInt8) :
    bus.write (canonical address) value = bus.write address value := by
  have here := Location.ofAddress_at address
  unfold write
  rw [ofAddress_canonical]
  cases location : Location.ofAddress address with
  | lowerRom offset =>
      simp only [location, Location.At] at here
      omega
  | upperRom offset =>
      simp only [location, Location.At] at here
      omega
  | _ => rfl

/-- The canonical addresses from 0x8000 on are those of the addresses from 0x8000 on. -/
theorem canonical_outsideRom
    {address : UInt16}
    (outsideRom : 0x8000 ≤ address.toNat) :
    0x8000 ≤ (canonical address).toNat := by
  rcases canonical_toNat address with ⟨lower, -, echo⟩ | ⟨-, itself⟩
  · omega
  · rw [itself]
    exact outsideRom

/-- The register page takes every store that is meant for it, and no other. -/
theorem write_peripherals
    (bus : Bus)
    (address : UInt16)
    (value : UInt8) :
    (bus.write address value).peripherals =
      bus.peripherals.write address value := by
  have here := Location.ofAddress_at address
  unfold write
  cases location : Location.ofAddress address with
  | register registerAddress =>
      rw [location] at here
      cases UInt16.toNat_inj.mp here.1
      rfl
  | _ =>
      simp only [location, Location.At] at here
      exact (Peripherals.write_outside_page
        (by omega) bus.peripherals value).symm

/-- A store below 0x8000 changes nothing but the registers of the controller. -/
theorem write_rom
    {stored : UInt16}
    (insideRom : stored.toNat < 0x8000)
    (bus : Bus)
    (value : UInt8) :
    bus.write stored value =
      { bus with
        cartridge :=
          { bus.cartridge with
            controller :=
              bus.cartridge.controller.write stored value } } := by
  have here := Location.ofAddress_at stored
  unfold write
  cases location : Location.ofAddress stored with
  | lowerRom offset => rfl
  | upperRom offset => rfl
  | _ =>
      simp only [location, Location.At] at here
      omega

/-- The registers of the controller decide what two windows show, and nothing else. -/
theorem read_withController
    {address : UInt16}
    (outsideUpperRom : ¬ (0x4000 ≤ address.toNat ∧ address.toNat ≤ 0x7FFF))
    (outsideRam : ¬ (0xA000 ≤ address.toNat ∧ address.toNat ≤ 0xBFFF))
    (bus : Bus)
    (controller : Controller) :
    Bus.read
        { bus with
          cartridge := { bus.cartridge with controller := controller } }
        address =
      bus.read address := by
  have here := Location.ofAddress_at address
  unfold read
  cases location : Location.ofAddress address with
  | upperRom offset =>
      simp only [location, Location.At] at here
      omega
  | cartridgeRam offset =>
      simp only [location, Location.At] at here
      omega
  | _ => rfl

/--
The last write wins.  After a store from 0x8000 on, the addresses that share the byte
read as `readBack` says, and all others as before.  A store below 0x8000 is seen only
through the two windows that the cartridge's controller moves, and changes no byte.
-/
theorem read_write
    (bus : Bus)
    (stored address : UInt16)
    (value : UInt8) :
    (0x8000 ≤ stored →
        (bus.write stored value).read address =
          if canonical address = canonical stored then
            bus.readBack address value
          else
            bus.read address) ∧
      (stored < 0x8000 →
        (¬ (0x4000 ≤ address ∧ address ≤ 0x7FFF) →
            ¬ (0xA000 ≤ address ∧ address ≤ 0xBFFF) →
            (bus.write stored value).read address = bus.read address) ∧
          ∃ controller,
            bus.write stored value =
              { bus with
                cartridge :=
                  { bus.cartridge with controller := controller } }) := by
  constructor
  · intro outsideRom
    have outsideRom : 0x8000 ≤ stored.toNat :=
      UInt16.le_iff_toNat_le.mp outsideRom
    by_cases same : canonical address = canonical stored
    · rw [if_pos same]
      have addressOutside : 0x8000 ≤ address.toNat := by
        have bound := canonical_outsideRom outsideRom
        rw [← same] at bound
        rcases canonical_toNat address with ⟨lower, -, -⟩ | ⟨-, itself⟩
        · omega
        · rwa [itself] at bound
      -- Of the addresses that share the byte, any may be taken for the one written.
      rw [← write_canonical outsideRom, ← same,
        write_canonical addressOutside]
      exact read_write_same addressOutside bus value
    · rw [if_neg same]
      exact read_write_other outsideRom same bus value
  · intro insideRom
    have insideRom : stored.toNat < 0x8000 :=
      UInt16.lt_iff_toNat_lt.mp insideRom
    rw [write_rom insideRom]
    constructor
    · intro outsideUpperRom outsideRam
      rw [UInt16.le_iff_toNat_le, UInt16.le_iff_toNat_le]
        at outsideUpperRom outsideRam
      exact read_withController outsideUpperRom outsideRam bus _
    · exact ⟨_, rfl⟩

/-- A store into work RAM is read back through the echo. -/
theorem read_write_echo :
    ((powerOn .blank).write 0xC123 0x5A).read 0xE123 = .ok 0x5A := by
  have readBack :=
    (read_write (powerOn .blank) 0xC123 0xE123 0x5A).1 (by decide)
  rw [if_pos (by decide)] at readBack
  exact readBack

end Bus

/-!
## What a transfer leaves alone

The copy stores into object memory and nowhere else, and reads what it copies from the
bus as it finds it.  So the register page knows of a transfer only by the request, which
is withdrawn when the copy is complete.
-/

namespace Bus

/-- A copy goes on after a byte that can be read and ends at one that cannot. -/
theorem copyToObjectMemory_cons
    (source : UInt16)
    (offset : Fin 0xA0)
    (offsets : List (Fin 0xA0))
    (bus : Bus) :
    copyToObjectMemory source (offset :: offsets) bus =
      match bus.read (source + UInt16.ofNat offset.val) with
      | .ok value =>
          copyToObjectMemory source offsets
            { bus with
              objectMemory :=
                bus.objectMemory.set offset.val value offset.isLt }
      | .error fault => ⟨bus, some fault⟩ :=
  rfl

/-- A copy into object memory changes nothing else, even if it is cut short. -/
theorem copyToObjectMemory_frame
    (source : UInt16)
    (offsets : List (Fin 0xA0))
    (bus : Bus) :
    ∃ bytes,
      (copyToObjectMemory source offsets bus).bus =
        { bus with objectMemory := bytes } := by
  induction offsets generalizing bus with
  | nil => exact ⟨bus.objectMemory, rfl⟩
  | cons offset rest inductionHypothesis =>
      rw [copyToObjectMemory_cons]
      split
      case h_1 value _ =>
        obtain ⟨bytes, copied⟩ :=
          inductionHypothesis
            { bus with
              objectMemory :=
                bus.objectMemory.set offset.val value offset.isLt }
        exact ⟨bytes, copied⟩
      case h_2 => exact ⟨bus.objectMemory, rfl⟩

/-- A transfer changes object memory and the request for a transfer at most. -/
theorem transfer_frame (bus : Bus) :
    ∃ bytes page,
      bus.transfer.bus =
        { bus with
          objectMemory := bytes
          peripherals :=
            { bus.peripherals with transferPage := page } } := by
  obtain ⟨bytes, copied⟩ :=
    copyToObjectMemory_frame
      (pageStart bus.peripherals.transferPage) (List.finRange 0xA0) bus
  unfold transfer
  dsimp only
  split
  · exact ⟨bus.objectMemory, bus.peripherals.transferPage, rfl⟩
  · split
    · exact ⟨bytes, 0, by rw [clearTransfer, copied]⟩
    · exact ⟨bytes, bus.peripherals.transferPage, copied⟩

/-- A transfer leaves the clock, the timer and the display as they are. -/
theorem transfer_peripherals (bus : Bus) :
    bus.transfer.bus.peripherals.clock = bus.peripherals.clock ∧
      bus.transfer.bus.peripherals.timer = bus.peripherals.timer ∧
      bus.transfer.bus.peripherals.lcd = bus.peripherals.lcd := by
  obtain ⟨bytes, page, transferred⟩ := bus.transfer_frame
  rw [transferred]
  exact ⟨rfl, rfl, rfl⟩

end Bus

end Dmg
