import Dmg.Proofs.Halt

namespace Dmg

/-!
# A word on a stack in RAM

A push into RAM stores two bytes and nothing else.  They are read back where they were
stored, every other byte is as before, and no unit of the register page takes notice.
So the word that is popped is the word that was pushed.
-/

namespace InRam

variable
  {address : UInt16}
  (inRam : InRam address)
include inRam

/-- The two stretches of RAM as places in the memory map. -/
theorem bounds :
    0xC000 ≤ address.toNat ∧ address.toNat ≤ 0xDFFF ∨
      0xFF80 ≤ address.toNat ∧ address.toNat ≤ 0xFFFE := by
  rcases inRam with ⟨above, below⟩ | ⟨above, below⟩
  · exact .inl
      ⟨UInt16.le_iff_toNat_le.mp above, UInt16.le_iff_toNat_le.mp below⟩
  · exact .inr
      ⟨UInt16.le_iff_toNat_le.mp above, UInt16.le_iff_toNat_le.mp below⟩

theorem outsideRom : 0x8000 ≤ address.toNat := by
  rcases inRam.bounds with ⟨above, -⟩ | ⟨above, -⟩
  · exact Nat.le_trans (by simp) above
  · exact Nat.le_trans (by simp) above

/-- Between the two stretches lie object memory and the register page. -/
theorem outsideBetween :
    address.toNat < 0xFE00 ∨ 0xFF4C ≤ address.toNat := by
  rcases inRam.bounds with ⟨-, below⟩ | ⟨above, -⟩
  · exact .inl (Nat.lt_of_le_of_lt below (by simp))
  · exact .inr (Nat.le_trans (by simp) above)

theorem outsidePage :
    address.toNat < 0xFF00 ∨ 0xFF4C ≤ address.toNat :=
  inRam.outsideBetween.imp_left fun below => Nat.lt_trans below (by simp)

/-- RAM is no echo, so its addresses stand for themselves. -/
theorem canonical_eq : Bus.canonical address = address := by
  rcases Bus.canonical_toNat address with ⟨above, below, -⟩ | ⟨-, itself⟩
  · rcases inRam.bounds with ⟨-, lower⟩ | ⟨upper, -⟩
    · exact absurd (Nat.le_trans above lower) (by simp)
    · exact absurd (Nat.lt_of_le_of_lt upper below) (by simp)
  · exact itself

/-- What is stored into RAM is read back as it was stored. -/
theorem read_stored
    (bus : Bus)
    (value : UInt8) :
    (bus.write address value).read address = .ok value := by
  have bounds := inRam.bounds
  have occupied : ¬ Bus.Vacant address.toNat := by
    unfold Bus.Vacant
    omega
  exact
    (Bus.read_write_same inRam.outsideRom bus value).trans
      (Bus.readBack_memory (by omega) occupied (by omega) bus value)

/-- A store into RAM leaves the units of the register page out. -/
theorem write_withPeripherals
    (bus : Bus)
    (peripherals : Peripherals)
    (value : UInt8) :
    Bus.write { bus with peripherals := peripherals } address value =
      { bus.write address value with peripherals := peripherals } := by
  have bounds := inRam.bounds
  have here := Location.ofAddress_at address
  unfold Bus.write
  cases location : Location.ofAddress address with
  | register registerAddress =>
      simp only [location, Location.At] at here
      omega
  | _ => rfl

/-- The register of the enabled sources lies just above RAM. -/
theorem write_interruptEnable
    (bus : Bus)
    (value : UInt8) :
    (bus.write address value).interruptEnable = bus.interruptEnable := by
  have bounds := inRam.bounds
  have here := Location.ofAddress_at address
  unfold Bus.write
  cases location : Location.ofAddress address with
  | interruptEnable =>
      simp only [location, Location.At] at here
      omega
  | _ => rfl

end InRam

namespace Bus

/-- The bus after a word has been pushed below a stack pointer, its high byte first. -/
def pushed
    (bus : Bus)
    (pointer word : UInt16) :
    Bus :=
  (bus.write (pointer - 1) (Word.high word)).write
    (pointer - 2) (Word.low word)

section Pushed

variable
  {pointer : UInt16}
  (highInRam : InRam (pointer - 1))
  (lowInRam : InRam (pointer - 2))
  (bus : Bus)
  (word : UInt16)

include lowInRam in
theorem read_pushed_low :
    (bus.pushed pointer word).read (pointer - 2) = .ok (Word.low word) :=
  lowInRam.read_stored _ (Word.low word)

include highInRam lowInRam

/-- Every byte but the two that are pushed is as before. -/
theorem read_pushed_other
    {address : UInt16}
    (notHigh : canonical address ≠ pointer - 1)
    (notLow : canonical address ≠ pointer - 2) :
    (bus.pushed pointer word).read address = bus.read address := by
  rw [← highInRam.canonical_eq] at notHigh
  rw [← lowInRam.canonical_eq] at notLow
  exact
    (read_write_other lowInRam.outsideRom notLow _ _).trans
      (read_write_other highInRam.outsideRom notHigh bus _)

/-- The low byte does not fall onto the high byte. -/
theorem read_pushed_high :
    (bus.pushed pointer word).read (pointer - 1) = .ok (Word.high word) := by
  have apart : pointer - 1 ≠ pointer - 2 := by
    grind
  have different :
      canonical (pointer - 1) ≠ canonical (pointer - 2) := by
    rwa [highInRam.canonical_eq, lowInRam.canonical_eq]
  exact
    (read_write_other lowInRam.outsideRom different _ _).trans
      (highInRam.read_stored bus _)

theorem pushed_peripherals :
    (bus.pushed pointer word).peripherals = bus.peripherals :=
  (write_inRam_peripherals lowInRam _ _).trans
    (write_inRam_peripherals highInRam bus _)

theorem pushed_interruptEnable :
    (bus.pushed pointer word).interruptEnable = bus.interruptEnable :=
  (lowInRam.write_interruptEnable _ _).trans
    (highInRam.write_interruptEnable bus _)

/-- The units of the register page may be replaced before the push as well as after it. -/
theorem pushed_withPeripherals (peripherals : Peripherals) :
    pushed { bus with peripherals := peripherals } pointer word =
      { bus.pushed pointer word with peripherals := peripherals } := by
  unfold pushed
  rw [highInRam.write_withPeripherals, lowInRam.write_withPeripherals]

/-- The ROM is not pushed to. -/
theorem read_pushed_rom
    {address : UInt16}
    (insideRom : address.toNat < 0x8000) :
    (bus.pushed pointer word).read address = bus.read address := by
  have itself : canonical address = address := by
    rcases canonical_toNat address with ⟨above, -, -⟩ | ⟨-, same⟩
    · exact absurd (Nat.lt_of_le_of_lt above insideRom) (by simp)
    · exact same
  have outside {other : UInt16} (inRam : InRam other) :
      canonical address ≠ other := by
    rw [itself]
    rintro rfl
    exact absurd inRam.outsideRom (Nat.not_le.mpr insideRom)
  exact
    read_pushed_other highInRam lowInRam bus word
      (outside highInRam) (outside lowInRam)

end Pushed

/-- The units of the register page are seen at its addresses only. -/
theorem read_withPeripherals
    {address : UInt16}
    {peripherals : Peripherals}
    {bus : Bus}
    (unseen :
      address.toNat < 0xFF00 ∨ 0xFF4C ≤ address.toNat ∨
        peripherals.read address = bus.peripherals.read address) :
    read { bus with peripherals := peripherals } address =
      bus.read address := by
  have here := Location.ofAddress_at address
  unfold read
  cases location : Location.ofAddress address with
  | register registerAddress =>
      simp only [location, Location.At] at here
      obtain ⟨same, lower, upper⟩ := here
      cases UInt16.toNat_inj.mp same
      rcases unseen with below | above | equal
      · exact absurd lower (Nat.not_le.mpr below)
      · exact absurd upper (Nat.not_lt.mpr above)
      · exact equal
  | _ => rfl

/-- A transfer is seen in object memory and on the register page only. -/
theorem read_transfer
    {address : UInt16}
    (elsewhere : address.toNat < 0xFE00 ∨ 0xFF4C ≤ address.toNat)
    (bus : Bus) :
    bus.transfer.bus.read address = bus.read address := by
  obtain ⟨bytes, page, transferred⟩ := bus.transfer_frame
  have here := Location.ofAddress_at address
  rw [transferred, read, read]
  cases location : Location.ofAddress address with
  | register registerAddress =>
      simp only [location, Location.At] at here
      omega
  | objectMemory offset =>
      simp only [location, Location.At] at here
      omega
  | _ => rfl

end Bus

end Dmg
