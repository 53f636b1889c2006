import Dmg.Bus.Basic
import Dmg.Proofs.Banking
import Dmg.Proofs.CartridgeRam

namespace Dmg

/-!
# Accesses with every index checked

The accesses of a cartridge and of the bus are stated a second time, so that they come
to nothing where an index lies outside a memory or a divisor is zero.  On a cartridge
whose memories are as large as its numbers of banks need, they agree with the plain ones.
-/

/-- The bytes of a memory from one place up to another, if the memory reaches that far. -/
def slice?
    (bytes : Array UInt8)
    (start stop : Nat) :
    Option (Array UInt8) :=
  if start ≤ stop ∧ stop ≤ bytes.size then
    some (bytes.extract start stop)
  else
    none

/-- The remainder of a division, unless the divisor is zero. -/
def remainder? (number divisor : Nat) : Option Nat :=
  if divisor = 0 then
    none
  else
    some (number % divisor)

theorem slice?_eq
    {bytes : Array UInt8}
    {start stop : Nat}
    (ordered : start ≤ stop)
    (inside : stop ≤ bytes.size) :
    slice? bytes start stop = some (bytes.extract start stop) :=
  if_pos ⟨ordered, inside⟩

namespace Controller

/-- The ROM bank in the upper window, unless it takes a division by zero to find it. -/
def romBank?
    (banks : Nat) :
    Controller → Option Nat
  | .romOnly => some 1
  | .mbc1 registers =>
      (remainder? registers.romSelect.toNat banks).map
        fun bank => if bank = 0 then 1 else bank

/-- The RAM bank that is shown, unless it takes a division by zero to find it. -/
def ramBank?
    (banks : Nat) :
    Controller → Option Nat
  | .romOnly => some 0
  | .mbc1 registers =>
      if 0 < banks then
        remainder? registers.ramSelect.toNat banks
      else
        some 0

variable {banks : Nat}

theorem romBank?_eq
    (controller : Controller)
    (present : 0 < banks) :
    controller.romBank? banks = some (controller.romBank banks) := by
  cases controller with
  | romOnly => rfl
  | mbc1 registers =>
      have divided :
          remainder? registers.romSelect.toNat banks =
            some (registers.romSelect.toNat % banks) :=
        if_neg (Nat.ne_of_gt present)
      unfold romBank?
      dsimp only
      rw [divided]
      rfl

theorem ramBank?_eq (controller : Controller) :
    controller.ramBank? banks = some (controller.ramBank banks) := by
  cases controller with
  | romOnly => rfl
  | mbc1 registers =>
      unfold ramBank? remainder? ramBank
      rcases banks with _ | others <;> rfl

end Controller

namespace Cartridge

/-- A byte of a ROM bank, if the ROM holds the whole bank. -/
def romByte?
    (cartridge : Cartridge)
    (bank offset : Nat) :
    Option UInt8 := do
  let start := bank * romBankSize
  let shown ← slice? cartridge.rom start (start + romBankSize)
  shown[offset]?

/-- A byte of the upper ROM window, if its bank can be found and the ROM holds it. -/
def upperRom?
    (cartridge : Cartridge)
    (offset : Nat) :
    Option UInt8 := do
  let bank ← cartridge.controller.romBank? cartridge.romBanks
  cartridge.romByte? bank offset

/-- The place where the RAM bank in view starts, and its bytes, if it lies inside. -/
def ramInView? (cartridge : Cartridge) : Option (Nat × Array UInt8) := do
  let bank ← cartridge.controller.ramBank? cartridge.ramBanks
  let start := bank * ramBankSize
  let shown ←
    slice? cartridge.ram start
      (min (start + ramBankSize) cartridge.ram.size)
  return (start, shown)

/-- Read the RAM window, if that needs no bank outside the RAM. -/
def readRam?
    (cartridge : Cartridge)
    (offset : Nat) :
    Option UInt8 :=
  if cartridge.ramEnabled ∧ cartridge.ram.size ≠ 0 then do
    let (_, shown) ← cartridge.ramInView?
    return shown[offset]?.getD 0xFF
  else
    some 0xFF

/-- Write the RAM window, if that needs no bank and no byte outside the RAM. -/
def writeRam?
    (cartridge : Cartridge)
    (offset : Nat)
    (value : UInt8) :
    Option Cartridge :=
  if cartridge.ramEnabled ∧ cartridge.ram.size ≠ 0 then do
    let (start, shown) ← cartridge.ramInView?
    if offset < shown.size then
      if inside : start + offset < cartridge.ram.size then
        return { cartridge with
          ram := cartridge.ram.set (start + offset) value inside }
      else
        none
    else
      return cartridge
  else
    some cartridge

/-- A byte of a bank that the ROM holds is found by the checked access. -/
theorem romByte?_eq
    {cartridge : Cartridge}
    {bank offset : Nat}
    (held : (bank + 1) * romBankSize ≤ cartridge.rom.size)
    (inWindow : offset < romBankSize) :
    cartridge.romByte? bank offset =
      some (cartridge.romByte bank offset) := by
  have reaches :
      bank * romBankSize + romBankSize ≤ cartridge.rom.size := by
    rwa [← Nat.succ_mul]
  have inside : bank * romBankSize + offset < cartridge.rom.size := by
    omega
  have sliced :
      slice? cartridge.rom (bank * romBankSize)
          (bank * romBankSize + romBankSize) =
        some
          (cartridge.rom.extract (bank * romBankSize)
            (bank * romBankSize + romBankSize)) :=
    slice?_eq (Nat.le_add_right _ _) reaches
  unfold romByte? romByte
  dsimp only
  rw [sliced, Array.getD_eq_getD_getElem?, Option.bind_eq_bind,
    Option.bind_some, Array.getElem?_extract, Nat.min_eq_left reaches,
    if_pos (by omega), Array.getElem?_eq_getElem inside]
  rfl

namespace Shaped

variable {cartridge : Cartridge}

/-- The lower window shows a bank that the ROM holds. -/
theorem romByte?_lower
    (shaped : cartridge.Shaped)
    {offset : Nat}
    (inWindow : offset < romBankSize) :
    cartridge.romByte? 0 offset = some (cartridge.lowerRom offset) := by
  have oneBank : (0 + 1) * romBankSize ≤ cartridge.rom.size :=
    calc
      (0 + 1) * romBankSize ≤ cartridge.romBanks * romBankSize :=
        Nat.mul_le_mul_right romBankSize
          (Nat.le_of_succ_le shaped.twoBanks)
      _ ≤ cartridge.rom.size := shaped.romHeld
  exact romByte?_eq oneBank inWindow

/-- The upper window shows a bank that can be found and that the ROM holds. -/
theorem upperRom?_eq
    (shaped : cartridge.Shaped)
    {offset : Nat}
    (inWindow : offset < romBankSize) :
    cartridge.upperRom? offset = some (cartridge.upperRom offset) := by
  have banks : 0 < cartridge.romBanks :=
    Nat.lt_of_succ_lt shaped.twoBanks
  unfold upperRom?
  rw [Controller.romBank?_eq _ banks, Option.bind_eq_bind,
    Option.bind_some]
  exact romByte?_eq shaped.romBank_inside inWindow

/-- The RAM bank in view can be found and lies inside, if there is a RAM. -/
theorem ramInView?_eq
    (shaped : cartridge.Shaped)
    (present : cartridge.ram.size ≠ 0) :
    cartridge.ramInView? =
      some
        (cartridge.ramStart,
          cartridge.ram.extract cartridge.ramStart
            (cartridge.ramStart + cartridge.ramLength)) := by
  have starts := shaped.ramStart_lt present
  have bankEnd :
      min (cartridge.ramStart + ramBankSize) cartridge.ram.size =
        cartridge.ramStart + cartridge.ramLength := by
    unfold ramLength
    omega
  have inside :
      cartridge.ramStart + cartridge.ramLength ≤ cartridge.ram.size :=
    (shaped.ramBank_inside present).2.2
  unfold ramInView?
  rw [Controller.ramBank?_eq, Option.bind_eq_bind, Option.bind_some]
  dsimp only
  change (do
    let shown ← slice? cartridge.ram cartridge.ramStart
      (min (cartridge.ramStart + ramBankSize) cartridge.ram.size)
    pure (cartridge.ramStart, shown)) = _
  rw [bankEnd, slice?_eq (Nat.le_add_right _ _) inside]
  rfl

/-- The length of the RAM bank that the checked accesses find. -/
theorem size_ramInView
    (shaped : cartridge.Shaped)
    (present : cartridge.ram.size ≠ 0) :
    (cartridge.ram.extract cartridge.ramStart
        (cartridge.ramStart + cartridge.ramLength)).size =
      cartridge.ramLength := by
  have inside := (shaped.ramBank_inside present).2.2
  rw [Array.size_extract, Nat.min_eq_left inside]
  omega

theorem readRam?_eq
    (shaped : cartridge.Shaped)
    (offset : Nat) :
    cartridge.readRam? offset = some (cartridge.readRam offset) := by
  unfold readRam?
  rw [readRam_eq]
  split
  case isTrue ready =>
    have inside := (shaped.ramBank_inside ready.2).2.2
    rw [shaped.ramInView?_eq ready.2, Option.bind_eq_bind,
      Option.bind_some]
    dsimp only
    rw [Array.getElem?_extract, Nat.min_eq_left inside,
      Nat.add_sub_cancel_left]
    by_cases inBank : offset < cartridge.ramLength
    · rw [if_pos inBank, if_pos ⟨ready.1, inBank⟩]
      rfl
    · rw [if_neg inBank, if_neg fun answers => inBank answers.2]
      rfl
  case isFalse silent =>
    rw [if_neg fun answers : cartridge.RamAnswers offset =>
      silent ⟨answers.1, answers.present⟩]

theorem writeRam?_eq
    (shaped : cartridge.Shaped)
    (offset : Nat)
    (value : UInt8) :
    cartridge.writeRam? offset value =
      some (cartridge.writeRam offset value) := by
  unfold writeRam?
  rw [writeRam_eq]
  split
  case isTrue ready =>
    rw [shaped.ramInView?_eq ready.2, Option.bind_eq_bind,
      Option.bind_some]
    dsimp only
    rw [shaped.size_ramInView ready.2]
    by_cases inBank : offset < cartridge.ramLength
    · have answers : cartridge.RamAnswers offset := ⟨ready.1, inBank⟩
      rw [if_pos inBank, dif_pos answers.inside, if_pos answers]
      unfold withRamByte
      rw [Array.setIfInBounds_def, dif_pos answers.inside]
      rfl
    · rw [if_neg inBank, if_neg fun answers => inBank answers.2]
      rfl
  case isFalse silent =>
    rw [if_neg fun answers : cartridge.RamAnswers offset =>
      silent ⟨answers.1, answers.present⟩]

end Shaped

end Cartridge

namespace Bus

/-- Read an address, if no index on the way is out of bounds and no divisor zero. -/
def read?
    (bus : Bus)
    (address : UInt16) :
    Option (Except Fault UInt8) :=
  match Location.ofAddress address with
  | .lowerRom offset => (bus.cartridge.romByte? 0 offset.val).map .ok
  | .upperRom offset => (bus.cartridge.upperRom? offset.val).map .ok
  | .cartridgeRam offset => (bus.cartridge.readRam? offset.val).map .ok
  -- The other memories are as long as their windows.
  | location => some (bus.readLocation location)

/-- Write an address, if no index on the way is out of bounds and no divisor zero. -/
def write?
    (bus : Bus)
    (address : UInt16)
    (value : UInt8) :
    Option Bus :=
  match Location.ofAddress address with
  | .cartridgeRam offset =>
      (bus.cartridge.writeRam? offset.val value).map fun cartridge =>
        { bus with cartridge := cartridge }
  | _ => some (bus.write address value)

variable {bus : Bus}

theorem read?_eq
    (shaped : bus.cartridge.Shaped)
    (address : UInt16) :
    bus.read? address = some (bus.read address) := by
  unfold read? read
  cases Location.ofAddress address with
  | lowerRom offset =>
      dsimp only
      rw [shaped.romByte?_lower offset.isLt]
      rfl
  | upperRom offset =>
      dsimp only
      rw [shaped.upperRom?_eq offset.isLt]
      rfl
  | cartridgeRam offset =>
      dsimp only
      rw [shaped.readRam?_eq]
      rfl
  | _ => rfl

theorem write?_eq
    (shaped : bus.cartridge.Shaped)
    (address : UInt16)
    (value : UInt8) :
    bus.write? address value = some (bus.write address value) := by
  unfold write? write
  cases Location.ofAddress address with
  | cartridgeRam offset =>
      dsimp only
      rw [shaped.writeRam?_eq]
      rfl
  | _ => rfl

end Bus

end Dmg
