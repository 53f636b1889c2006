import Dmg.Proofs.CartridgeHistory
import Dmg.Proofs.CartridgeRam

namespace Dmg.Cartridge

/-!
# The history of the cartridge RAM

The RAM is addressed through a window, by the bank in view and an offset, and only while
it answers.  Over any sequence of operations each byte of each bank holds the latest
value that was stored into it, and zero before the first; whatever the controller does
in between decides which bytes are in view, and changes none.
-/

/-- A byte of the RAM, named by its bank and its offset there. -/
structure RamPlace where
  bank : Nat
  offset : Nat
  deriving Repr, DecidableEq

/-- Where the byte lies in the RAM. -/
def RamPlace.index (place : RamPlace) : Nat :=
  place.bank * ramBankSize + place.offset

/-- The RAM has such a byte, which lies inside its bank. -/
def HasPlace
    (cartridge : Cartridge)
    (place : RamPlace) :
    Prop :=
  place.offset < ramBankSize ∧ place.index < cartridge.ram.size

instance
    (cartridge : Cartridge)
    (place : RamPlace) :
    Decidable (cartridge.HasPlace place) :=
  inferInstanceAs (Decidable (_ ∧ _))

/-- The byte in view at an offset. -/
def placeInView
    (cartridge : Cartridge)
    (offset : Nat) :
    RamPlace where
  bank := cartridge.ramBank
  offset := offset

/--
The value that an operation stores into a byte of the RAM: a write into the window does
while the RAM is enabled, and a store from outside the bus does in any case, provided
that they hit the offset and the bank is in view.
-/
def stores?
    (place : RamPlace)
    (cartridge : Cartridge) :
    Operation → Option UInt8
  | .control _ _ => none
  | .writeRam address value =>
      if cartridge.ramEnabled = true ∧
          cartridge.ramBank = place.bank ∧
          address.toNat = ramWindow.toNat + place.offset then
        some value
      else
        none
  | .setRam offset value =>
      if cartridge.placeInView offset = place then
        some value
      else
        none
  | .resetBanking => none

/-- The value of the last of the operations that store into a byte of the RAM. -/
def latestStore?
    (place : RamPlace) :
    Cartridge → List Operation → Option UInt8
  | _, [] => none
  | cartridge, operation :: rest =>
      (latestStore? place (cartridge.apply operation) rest).or
        (cartridge.stores? place operation)

variable
  {cartridge : Cartridge}
  {place : RamPlace}
  {offset : Nat}
  {value : UInt8}

/-- An offset lies in the part of the bank in view exactly if the RAM has that byte. -/
theorem hasPlace_placeInView_iff :
    cartridge.HasPlace (cartridge.placeInView offset) ↔
      offset < cartridge.ramLength := by
  have starts :
      (cartridge.placeInView offset).index = cartridge.ramStart + offset :=
    rfl
  have inView : (cartridge.placeInView offset).offset = offset := rfl
  unfold HasPlace ramLength
  rw [starts, inView]
  omega

/-- Two bytes of the same bank size do not share their place in the RAM. -/
theorem index_injective
    {first second : RamPlace}
    (firstInBank : first.offset < ramBankSize)
    (secondInBank : second.offset < ramBankSize)
    (same : first.index = second.index) :
    first = second := by
  obtain ⟨firstBank, firstOffset⟩ := first
  obtain ⟨secondBank, secondOffset⟩ := second
  simp only [RamPlace.index, ramBankSize] at *
  rw [RamPlace.mk.injEq]
  omega

/-- A store from outside the bus replaces the byte that it hits, and no other. -/
theorem setRam_byte (hasPlace : cartridge.HasPlace place) :
    (cartridge.setRam offset value).ram[place.index]? =
      (cartridge.stores? place (.setRam offset value)).or
        cartridge.ram[place.index]? := by
  unfold setRam ramIndex? stores?
  by_cases inside : offset < cartridge.ramLength
  case neg =>
    have missed : cartridge.placeInView offset ≠ place := by
      rintro rfl
      exact inside (hasPlace_placeInView_iff.mp hasPlace)
    simp only [if_neg inside, if_neg missed, Option.none_or]
  case pos =>
    have inView := hasPlace_placeInView_iff.mpr inside
    simp only [if_pos inside]
    change (cartridge.ram.setIfInBounds
      (cartridge.placeInView offset).index value)[place.index]? = _
    rw [Array.getElem?_setIfInBounds]
    by_cases hit : cartridge.placeInView offset = place
    · rw [if_pos hit, hit, if_pos rfl, if_pos hasPlace.2, Option.some_or]
    · rw [if_neg hit, if_neg, Option.none_or]
      exact fun same =>
        hit (index_injective inView.1 hasPlace.1 same)

/-- A write into the window stores into the byte in view at its offset, if any. -/
theorem stores?_writeRam
    {address : UInt16}
    (inWindow : ramWindow ≤ address) :
    cartridge.stores? place (.writeRam address value) =
      if cartridge.ramEnabled then
        cartridge.stores? place
          (.setRam (address - ramWindow).toNat value)
      else
        none := by
  have above := UInt16.le_iff_toNat_le.mp inWindow
  have sameByte :
      cartridge.placeInView (address - ramWindow).toNat = place ↔
        cartridge.ramBank = place.bank ∧
          address.toNat = ramWindow.toNat + place.offset := by
    obtain ⟨bank, offset⟩ := place
    rw [placeInView, RamPlace.mk.injEq, UInt16.toNat_sub_of_le _ _ inWindow]
    dsimp only
    omega
  unfold stores?
  simp only [sameByte]
  by_cases enabled : cartridge.ramEnabled <;> simp [enabled]

/-- An operation replaces the byte that it stores into, and no other. -/
theorem apply_byte
    (hasPlace : cartridge.HasPlace place)
    (operation : Operation) :
    (cartridge.apply operation).ram[place.index]? =
      (cartridge.stores? place operation).or cartridge.ram[place.index]? := by
  cases operation with
  | control => rfl
  | resetBanking => rfl
  | setRam offset value => exact setRam_byte hasPlace
  | writeRam address value =>
      unfold apply writeRamAt
      dsimp only
      split
      case isTrue inWindow =>
        rw [stores?_writeRam inWindow]
        unfold writeRam
        split
        · exact setRam_byte hasPlace
        · rfl
      case isFalse outside =>
        have missed :
            cartridge.stores? place (.writeRam address value) = none := by
          rw [UInt16.le_iff_toNat_le] at outside
          exact if_neg fun ⟨_, _, hit⟩ => outside (by omega)
        rw [missed, Option.none_or]

/-- The bytes that the RAM has stay the same as long as its size does. -/
theorem Keeps.hasPlace_iff
    {earlier later : Cartridge}
    (keeps : Keeps earlier later) :
    later.HasPlace place ↔ earlier.HasPlace place := by
  unfold HasPlace
  rw [keeps.ramSize]

/-- Over several operations a byte gets the latest value that is stored into it, if any. -/
theorem afterAll_byte
    (hasPlace : cartridge.HasPlace place)
    (operations : List Operation) :
    (cartridge.afterAll operations).ram[place.index]? =
      (cartridge.latestStore? place operations).or
        cartridge.ram[place.index]? := by
  induction operations generalizing cartridge with
  | nil => rfl
  | cons operation rest inductionHypothesis =>
      have hasPlaceAfter :=
        (Keeps.apply cartridge operation).hasPlace_iff.mpr hasPlace
      -- What the rest stores comes last, and what this operation stores before it.
      have goesOn := inductionHypothesis hasPlaceAfter
      rw [apply_byte hasPlace operation] at goesOn
      rw [latestStore?, Option.or_assoc]
      exact goesOn

/-- A loaded cartridge starts with zeros in its RAM. -/
theorem byte_of_load
    {image : Image}
    (loaded : load image = .ok cartridge)
    (hasPlace : cartridge.HasPlace place) :
    cartridge.ram[place.index]? = some 0 := by
  obtain ⟨-, -, banks, layout, controller, -, -, -, rfl⟩ :=
    load_eq_ok_iff.mp loaded
  have inside := hasPlace.2
  rw [ofChecked, Array.size_replicate] at inside
  rw [ofChecked, Array.getElem?_replicate, if_pos inside]

/-- A read of the window finds the byte in view, if the RAM is enabled and has it. -/
theorem readRamAt_eq
    {address : UInt16}
    (inWindow : ramWindow ≤ address) :
    let view := cartridge.placeInView (address - ramWindow).toNat
    cartridge.readRamAt address =
      if cartridge.ramEnabled = true ∧ cartridge.HasPlace view then
        cartridge.ram[view.index]?.getD 0xFF
      else
        0xFF := by
  intro view
  have answers :
      cartridge.RamAnswers (address - ramWindow).toNat ↔
        cartridge.ramEnabled = true ∧ cartridge.HasPlace view :=
    and_congr_right fun _ => hasPlace_placeInView_iff.symm
  rw [readRamAt, if_pos inWindow, readRam_eq]
  simp only [answers]
  rfl

/-- A RAM of a quarter of a bank has one bank, which is that short. -/
theorem Shaped.hasPlace_quarter_iff
    (shaped : cartridge.Shaped)
    (quarter : cartridge.ram.size = 0x800)
    (offset : Nat) :
    cartridge.HasPlace (cartridge.placeInView offset) ↔ offset < 0x800 := by
  have starts := shaped.ramStart_lt (by omega)
  rw [hasPlace_placeInView_iff]
  simp only [ramLength, ramStart, ramBankSize] at starts ⊢
  omega

/--
Whatever is done to a loaded cartridge, each byte of each bank holds the latest value
that was stored into it, and zero if there was none.  A read of the window finds that of
the byte in view, if the RAM is enabled and the bank in view is long enough, which is a
quarter of a window for a RAM of 2 KiB.  The controller changes none of the bytes, and a
write into one bank none of another.
-/
theorem ram_holds_latest_stores
    {image : Image}
    {made : Cartridge}
    (loaded : load image = .ok made)
    (operations : List Operation) :
    let cartridge := made.afterAll operations
    (∀ place,
        made.HasPlace place →
          cartridge.ram[place.index]? =
            some ((made.latestStore? place operations).getD 0)) ∧
      (∀ address,
        ramWindow ≤ address →
          let view := cartridge.placeInView (address - ramWindow).toNat
          cartridge.readRamAt address =
            if cartridge.ramEnabled = true ∧ made.HasPlace view then
              (made.latestStore? view operations).getD 0
            else
              0xFF) ∧
      (made.ram.size = 0x800 →
        ∀ offset,
          made.HasPlace (cartridge.placeInView offset) ↔
            offset < 0x800) ∧
      (∀ address value,
        (cartridge.writeControl address value).ram = cartridge.ram) ∧
      cartridge.resetBanking.ram = cartridge.ram ∧
      ∀ address value place,
        made.HasPlace place →
          place.bank ≠ cartridge.ramBank →
          (cartridge.writeRamAt address value).ram[place.index]? =
            cartridge.ram[place.index]? := by
  intro cartridge
  have keeps := Keeps.afterAll made operations
  have bytes :
      ∀ place,
        made.HasPlace place →
          cartridge.ram[place.index]? =
            some ((made.latestStore? place operations).getD 0) := by
    intro place hasPlace
    rw [afterAll_byte hasPlace, byte_of_load loaded hasPlace]
    cases made.latestStore? place operations <;> rfl
  refine ⟨bytes, ?_, ?_, fun _ _ => rfl, rfl, ?_⟩
  · intro address inWindow view
    have sameView : cartridge.HasPlace view ↔ made.HasPlace view :=
      keeps.hasPlace_iff
    have read :
        cartridge.readRamAt address =
          if cartridge.ramEnabled = true ∧ cartridge.HasPlace view then
            cartridge.ram[view.index]?.getD 0xFF
          else
            0xFF :=
      readRamAt_eq inWindow
    simp only [read, sameView]
    split
    case isTrue answers => rw [bytes view answers.2, Option.getD_some]
    case isFalse => rfl
  · intro quarter offset
    have shaped := (Shaped.load loaded).1.of_keeps keeps
    rw [← keeps.hasPlace_iff]
    exact shaped.hasPlace_quarter_iff (keeps.ramSize.trans quarter) offset
  · intro address value place hasPlace otherBank
    have stored :=
      apply_byte (keeps.hasPlace_iff.mpr hasPlace)
        (.writeRam address value)
    have missed :
        cartridge.stores? place (.writeRam address value) = none :=
      if_neg fun ⟨_, hit, _⟩ => otherBank hit.symm
    rwa [missed, Option.none_or] at stored

/-- The RAM is enabled, its third bank written, the first one selected, and all reset. -/
def thirdBankWritten : List Operation :=
  [.control 0x0000 0x0A, .control 0x6000 1, .control 0x4000 2,
    .writeRam 0xA123 0x5A, .control 0x4000 0, .resetBanking]

/-- The written byte is still in the third bank, and the first one still holds zero. -/
theorem ram_holds_latest_stores_thirdBank :
    ∃ made,
      load seventyTwoBanks = .ok made ∧
        let cartridge := made.afterAll thirdBankWritten
        cartridge.ram[(RamPlace.mk 2 0x123).index]? = some 0x5A ∧
          cartridge.ram[(RamPlace.mk 0 0x123).index]? = some 0 := by
  let made := ofChecked seventyTwoBanks 72 ⟨4, 0x8000⟩ (.mbc1 .powerOn)
  have hasPlace :
      ∀ bank < 4, made.HasPlace ⟨bank, 0x123⟩ := by
    intro bank inRange
    have size : made.ram.size = 0x8000 := Array.size_replicate
    rw [HasPlace, size]
    revert bank
    decide
  obtain ⟨bytes, -⟩ :=
    ram_holds_latest_stores load_seventyTwoBanks thirdBankWritten
  refine ⟨made, load_seventyTwoBanks, ?_, ?_⟩
  · rw [bytes ⟨2, 0x123⟩ (hasPlace 2 (by decide))]
    decide +kernel
  · rw [bytes ⟨0, 0x123⟩ (hasPlace 0 (by decide))]
    decide +kernel

end Dmg.Cartridge
