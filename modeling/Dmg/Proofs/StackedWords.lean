import Dmg.Proofs.PushedWord

namespace Dmg

/-!
# Words on a stack in RAM

A stack grows from its top downwards, by two bytes for each word.  The bytes below the top
are numbered by their depth; as long as all of them lie in one of the two RAMs no two of
them coincide, so a word that is pushed leaves those above it alone.
-/

/-- A store into RAM changes the two RAMs only. -/
theorem InRam.write_memories
    {address : UInt16}
    (inRam : InRam address)
    (bus : Bus)
    (value : UInt8) :
    bus.write address value =
      { bus with
        workRam := (bus.write address value).workRam
        highRam := (bus.write address value).highRam } := by
  have bounds := inRam.bounds
  have here := Location.ofAddress_at address
  unfold Bus.write
  cases location : Location.ofAddress address with
  | workRam | highRam => rfl
  | _ =>
      simp only [location, Location.At] at here
      omega

namespace Stack

/-- The address of the byte at a depth below the top. -/
def below
    (top : UInt16)
    (depth : Nat) :
    UInt16 :=
  top - .ofNat depth

/-- So many bytes below the top lie between two addresses. -/
def Within
    (first last top : UInt16)
    (size : Nat) :
    Prop :=
  ∀ depth, 1 ≤ depth → depth ≤ size →
    first ≤ below top depth ∧ below top depth ≤ last

instance (first last top : UInt16) (size : Nat) :
    Decidable (Within first last top size) :=
  decidable_of_iff
    (∀ depth ≤ size,
      1 ≤ depth → first ≤ below top depth ∧ below top depth ≤ last)
    ⟨fun all depth positive within => all depth within positive,
      fun all depth within positive => all depth positive within⟩

/-- So many bytes below the top lie in work RAM, or all of them in high RAM. -/
def RoomBelow
    (top : UInt16)
    (size : Nat) :
    Prop :=
  Within 0xC000 0xDFFF top size ∨ Within 0xFF80 0xFFFE top size

instance (top : UInt16) (size : Nat) : Decidable (RoomBelow top size) :=
  inferInstanceAs (Decidable (_ ∨ _))

/-- The bytes at so many depths are the same. -/
def SameBelow
    (top : UInt16)
    (size : Nat)
    (before after : Bus) :
    Prop :=
  ∀ depth, 1 ≤ depth → depth ≤ size →
    after.read (below top depth) = before.read (below top depth)

/-- Nothing has changed but the bytes at so many depths, which belong to the RAMs. -/
structure OnlyBelow
    (top : UInt16)
    (size : Nat)
    (before after : Bus) :
    Prop where
  memories :
    after =
      { before with
        workRam := after.workRam
        highRam := after.highRam }
  elsewhere :
    ∀ address,
      (∀ depth, 1 ≤ depth → depth ≤ size →
        Bus.canonical address ≠ below top depth) →
      after.read address = before.read address

/-- The words lie below the top, the one that was pushed last in front. -/
def Holds
    (bus : Bus)
    (top : UInt16) :
    List UInt16 → Prop
  | [] => True
  | word :: rest =>
      bus.read (below top (2 * rest.length + 2)) = .ok (Word.low word) ∧
        bus.read (below top (2 * rest.length + 1)) = .ok (Word.high word) ∧
        Holds bus top rest

section Depths

variable {top : UInt16} {depth : Nat}

@[simp] theorem below_zero : below top 0 = top := by
  simp [below]

theorem toNat_below :
    (below top depth).toNat =
      (0x10000 - depth % 0x10000 + top.toNat) % 0x10000 := by
  simp [below, UInt16.toNat_sub]

/-- One byte further down is one address less. -/
theorem below_sub_one : below top depth - 1 = below top (depth + 1) := by
  apply UInt16.toNat_inj.mp
  rw [UInt16.toNat_sub, toNat_below, toNat_below]
  have one : (1 : UInt16).toNat = 1 := rfl
  omega

theorem below_sub_two : below top depth - 2 = below top (depth + 2) := by
  rw [← below_sub_one, ← below_sub_one]
  grind

theorem below_add_one : below top (depth + 1) + 1 = below top depth := by
  rw [← below_sub_one]
  grind

theorem below_add_two : below top (depth + 2) + 2 = below top depth := by
  rw [← below_sub_two]
  grind

end Depths

/-- No more bytes lie between two addresses than there are addresses. -/
theorem Within.size_le
    {first last top : UInt16}
    {size : Nat}
    (within : Within first last top size)
    (few : last.toNat < first.toNat + 0x2000) :
    size ≤ 0x2000 := by
  by_contra larger
  obtain ⟨deepAbove, deepBelow⟩ := within 0x2001 (by decide) (by omega)
  obtain ⟨shallowAbove, shallowBelow⟩ := within 1 (by decide) (by omega)
  rw [UInt16.le_iff_toNat_le, toNat_below] at *
  have fits := top.toNat_lt
  omega

section Room

variable
  {top : UInt16}
  {depth size : Nat}
  (room : RoomBelow top size)
include room

theorem RoomBelow.mono
    {smaller : Nat}
    (fits : smaller ≤ size) :
    RoomBelow top smaller :=
  room.imp
    (fun inWork depth positive within =>
      inWork depth positive (Nat.le_trans within fits))
    (fun inHigh depth positive within =>
      inHigh depth positive (Nat.le_trans within fits))

theorem RoomBelow.inRam
    (positive : 1 ≤ depth)
    (within : depth ≤ size) :
    InRam (below top depth) :=
  room.imp
    (fun inWork => inWork depth positive within)
    (fun inHigh => inHigh depth positive within)

/-- There is no room for more than the work RAM. -/
theorem RoomBelow.size_le : size ≤ 0x2000 := by
  rcases room with inWork | inHigh
  · exact inWork.size_le (by decide)
  · exact inHigh.size_le (by decide)

/-- The bytes at different depths are different bytes. -/
theorem RoomBelow.below_ne
    {other : Nat}
    (within : depth ≤ size)
    (otherWithin : other ≤ size)
    (different : depth ≠ other) :
    below top depth ≠ below top other := by
  intro same
  -- Without this bound a stack could go round the address space and meet itself.
  have small := room.size_le
  have sameNumber := congrArg UInt16.toNat same
  rw [toNat_below, toNat_below] at sameNumber
  omega

/-- Where there is room a word is pushed into RAM. -/
theorem RoomBelow.pushedInRam (within : depth + 2 ≤ size) :
    InRam (below top depth - 1) ∧ InRam (below top depth - 2) := by
  rw [below_sub_one, below_sub_two]
  exact ⟨room.inRam (by omega) (by omega), room.inRam (by omega) within⟩

/-- A push changes two bytes below the pointer. -/
theorem RoomBelow.onlyBelow_pushed
    (within : depth + 2 ≤ size)
    (bus : Bus)
    (word : UInt16) :
    OnlyBelow top size bus (bus.pushed (below top depth) word) := by
  obtain ⟨highInRam, lowInRam⟩ := room.pushedInRam within
  constructor
  · unfold Bus.pushed
    rw [lowInRam.write_memories, highInRam.write_memories]
  · intro address apart
    apply Bus.read_pushed_other highInRam lowInRam
    · rw [below_sub_one]
      exact apart _ (by omega) (by omega)
    · rw [below_sub_two]
      exact apart _ (by omega) within

/-- The bytes above the pushed ones are as before. -/
theorem RoomBelow.sameBelow_pushed
    (within : depth + 2 ≤ size)
    (bus : Bus)
    (word : UInt16) :
    SameBelow top depth bus (bus.pushed (below top depth) word) := by
  intro higher positive above
  have inRam : InRam (below top higher) :=
    room.inRam positive (by omega)
  obtain ⟨highInRam, lowInRam⟩ := room.pushedInRam within
  apply Bus.read_pushed_other highInRam lowInRam
  · rw [inRam.canonical_eq, below_sub_one]
    exact room.below_ne (by omega) (by omega) (by omega)
  · rw [inRam.canonical_eq, below_sub_two]
    exact room.below_ne (by omega) within (by omega)

end Room

namespace OnlyBelow

variable
  {top : UInt16}
  {size : Nat}
  {before middle after : Bus}

theorem refl (bus : Bus) : OnlyBelow top size bus bus where
  memories := rfl
  elsewhere := fun _ _ => rfl

theorem trans
    (toMiddle : OnlyBelow top size before middle)
    (toAfter : OnlyBelow top size middle after) :
    OnlyBelow top size before after where
  memories := by
    rw [toAfter.memories, toMiddle.memories]
  elsewhere := by
    intro address apart
    exact
      (toAfter.elsewhere address apart).trans
        (toMiddle.elsewhere address apart)

end OnlyBelow

/-- Words stay on the stack as long as their bytes are the same. -/
theorem Holds.of_same
    {top : UInt16}
    {words : List UInt16}
    {before after : Bus}
    (holds : Holds before top words)
    (same : SameBelow top (2 * words.length) before after) :
    Holds after top words := by
  induction words with
  | nil => trivial
  | cons word rest inductionHypothesis =>
      obtain ⟨low, high, deeper⟩ := holds
      rw [List.length_cons] at same
      refine ⟨?_, ?_, inductionHypothesis deeper ?_⟩
      · exact (same _ (by omega) (by omega)).trans low
      · exact (same _ (by omega) (by omega)).trans high
      · intro depth positive within
        exact same depth positive (by omega)

/-- A word that is pushed comes to lie in front of the others. -/
theorem Holds.push
    {top : UInt16}
    {rest : List UInt16}
    {bus : Bus}
    (holds : Holds bus top rest)
    (room : RoomBelow top (2 * rest.length + 2))
    (word : UInt16) :
    Holds (bus.pushed (below top (2 * rest.length)) word) top
      (word :: rest) := by
  obtain ⟨highInRam, lowInRam⟩ := room.pushedInRam (Nat.le_refl _)
  have low := Bus.read_pushed_low lowInRam bus word
  have high := Bus.read_pushed_high highInRam lowInRam bus word
  rw [below_sub_two] at low
  rw [below_sub_one] at high
  exact
    ⟨low, high, holds.of_same (room.sameBelow_pushed (Nat.le_refl _) bus word)⟩

end Stack

end Dmg
