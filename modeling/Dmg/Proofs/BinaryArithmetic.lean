import Dmg.Proofs.ByteChain
import Dmg.Proofs.InstructionEffect

namespace Dmg

/-!
# Binary arithmetic of any length

Numbers of any length are added by `ADC` and subtracted by `SBC` on one byte after the
other, and whatever the machine does in between, it loads the accumulator with the next
byte and keeps the carry flag.  A chain may begin with `ADD` or `SUB`, which take no carry.
Of a difference `CP` leaves the flags only.
-/

/-- The next instruction is the operation with the value, which can be read. -/
inductive Machine.Operates
    (machine : Machine)
    (operation : AluOp)
    (value : UInt8) :
    Prop
  | register
      {name : Register}
      (begins : machine.Begins (.regular (.alu operation (.register name))))
      (holds : machine.cpu.get name = value)
  | memory
      (begins : machine.Begins (.regular (.alu operation .memory)))
      (found : machine.bus.read machine.cpu.hl = .ok value)
  | immediate
      (begins : machine.Begins (.regular (.aluImmediate operation)))
      (found : machine.bus.read (machine.cpu.pc + 1) = .ok value)

/-- The next instruction succeeds and leaves the accumulator and the flags as told. -/
def Machine.Leaves
    (machine : Machine)
    (property : UInt8 → Flags → Prop) :
    Prop :=
  ∃ cost final,
    machine.perform .executeNext = .ok cost final ∧
      property final.cpu.a final.cpu.flags

section Operation

variable
  {machine : Machine}
  {operation : AluOp}
  {value : UInt8}
  {property : UInt8 → Flags → Prop}

/-- Where the program counter stands does not matter for an operation. -/
theorem Machine.leaves_of_operating
    {cost : Nat}
    {final : Execution}
    (succeeded : machine.perform .executeNext = .ok cost final)
    (address : UInt16)
    (operated :
      final.cpu = (machine.cpu.goingTo address).operating operation value)
    (holds :
      property (machine.cpu.operating operation value).a
        (machine.cpu.operating operation value).flags) :
    machine.Leaves property := by
  refine ⟨cost, final, succeeded, ?_⟩
  rw [operated]
  cases operation <;> exact holds

/-- An operation whose value can be read succeeds. -/
theorem Machine.Operates.leaves
    (operates : machine.Operates operation value)
    (holds :
      property (machine.cpu.operating operation value).a
        (machine.cpu.operating operation value).flags) :
    machine.Leaves property := by
  cases operates with
  | @register name begins same =>
      obtain ⟨opcode, found, decoded⟩ := begins
      have succeeded := executeNext_of_answered found decoded nofun
      subst same
      refine leaves_of_operating succeeded (machine.cpu.pc + 1) ?_ holds
      cases name <;> rfl
  | memory begins foundValue =>
      obtain ⟨opcode, found, decoded⟩ := begins
      have answered := Bus.answered_of_read foundValue
      have succeeded :=
        executeNext_of_answered found decoded
          (List.forall_mem_singleton.mpr answered)
      have isValue := Bus.byteAt_of_read foundValue
      subst isValue
      exact leaves_of_operating succeeded _ rfl holds
  | immediate begins foundValue =>
      obtain ⟨opcode, found, decoded⟩ := begins
      have answered := Bus.answered_of_read foundValue
      have succeeded :=
        executeNext_of_answered found decoded
          (List.forall_mem_singleton.mpr answered)
      have isValue := Bus.byteAt_of_read foundValue
      subst isValue
      exact leaves_of_operating succeeded _ rfl holds

end Operation

/--
The work of an operation on two bytes: whichever machine has the first one in the
accumulator and the carry in its flag, and operates with the second, succeeds.
-/
def AluOp.work (operation : AluOp) : ByteWork (UInt8 × UInt8) :=
  fun carry pair property =>
    ∀ machine : Machine,
      machine.cpu.a = pair.1 →
        machine.cpu.flags.carry = carry →
          machine.Operates operation pair.2 → machine.Leaves property

namespace AluOp

variable
  {operation : AluOp}
  {carry : Bool}
  {pair : UInt8 × UInt8}
  {property : UInt8 → Flags → Prop}

theorem work_monotone (operation : AluOp) : operation.work.Monotone := by
  intro carry pair property other work weaken machine first entering operates
  obtain ⟨cost, final, succeeded, holds⟩ := work machine first entering operates
  exact ⟨cost, final, succeeded, weaken _ _ holds⟩

/-- The work ends with what the operation computes. -/
theorem work_of_compute
    (keeps : operation ≠ .cp)
    (holds :
      property (Alu.compute operation pair.1 pair.2 carry).value
        (Alu.compute operation pair.1 pair.2 carry).flags) :
    operation.work carry pair property := by
  intro machine first entering operates
  refine operates.leaves ?_
  rw [Cpu.operating, if_neg keeps, first, entering]
  exact holds

/-- A comparison ends with the flags of the difference. -/
theorem work_of_compare
    (holds :
      property pair.1 (Alu.compute .cp pair.1 pair.2 carry).flags) :
    AluOp.cp.work carry pair property := by
  intro machine first entering operates
  refine operates.leaves ?_
  rw [← first] at holds
  exact holds

end AluOp

/-- What the flags tell of a sum: the equations hold with the carries that they tell. -/
structure Flags.TellSum
    (flags : Flags)
    (carry : Bool)
    (pair : UInt8 × UInt8)
    (result : UInt8) :
    Prop where
  zero : flags.zero = true ↔ result = 0
  subtract : flags.subtract = false
  half :
    result.toNat % 16 + 16 * flags.halfCarry.toNat =
      pair.1.toNat % 16 + pair.2.toNat % 16 + carry.toNat
  whole :
    result.toNat + 256 * flags.carry.toNat =
      pair.1.toNat + pair.2.toNat + carry.toNat

/-- What the flags tell of a difference: what is borrowed makes up for the rest. -/
structure Flags.TellDifference
    (flags : Flags)
    (borrow : Bool)
    (pair : UInt8 × UInt8)
    (result : UInt8) :
    Prop where
  zero : flags.zero = true ↔ result = 0
  subtract : flags.subtract = true
  half :
    pair.1.toNat % 16 + 16 * flags.halfCarry.toNat =
      result.toNat % 16 + pair.2.toNat % 16 + borrow.toNat
  whole :
    pair.1.toNat + 256 * flags.carry.toNat =
      result.toNat + pair.2.toNat + borrow.toNat

namespace Alu

theorem toNat_toUInt8 (flag : Bool) : flag.toUInt8.toNat = flag.toNat := by
  cases flag <;> rfl

theorem toNat_decide
    (condition : Prop)
    [Decidable condition] :
    (decide condition).toNat = if condition then 1 else 0 := by
  split <;> simp_all

theorem toNat_add_value
    (left right : UInt8)
    (carry : Bool) :
    (add left right carry).value.toNat =
      (left.toNat + right.toNat + carry.toNat) % 256 := by
  simp [add, toNat_toUInt8]

theorem toNat_sub_value
    (left right : UInt8)
    (borrow : Bool) :
    (sub left right borrow).value.toNat =
      (left.toNat + 512 - right.toNat - borrow.toNat) % 256 := by
  have rightFits := right.toNat_lt
  have borrowFits := borrow.toNat_le
  simp only [sub, UInt8.toNat_sub, toNat_toUInt8]
  omega

/-- The flags of a sum tell its carries. -/
theorem add_tells
    (left right : UInt8)
    (carry : Bool) :
    (add left right carry).flags.TellSum carry (left, right)
      (add left right carry).value := by
  have leftFits := left.toNat_lt
  have rightFits := right.toNat_lt
  have carryFits := carry.toNat_le
  refine ⟨beq_iff_eq, rfl, ?_, ?_⟩
  · rw [toNat_add_value]
    simp only [add, toNat_decide]
    split <;> omega
  · rw [toNat_add_value]
    simp only [add, toNat_decide]
    split <;> omega

/-- The flags of a difference tell its borrows. -/
theorem sub_tells
    (left right : UInt8)
    (borrow : Bool) :
    (sub left right borrow).flags.TellDifference borrow (left, right)
      (sub left right borrow).value := by
  have leftFits := left.toNat_lt
  have rightFits := right.toNat_lt
  have borrowFits := borrow.toNat_le
  refine ⟨beq_iff_eq, rfl, ?_, ?_⟩
  · rw [toNat_sub_value]
    simp only [sub, toNat_decide]
    split <;> omega
  · rw [toNat_sub_value]
    simp only [sub, toNat_decide]
    split <;> omega

end Alu

/-- Every byte is a digit to the base 256. -/
def Numeral.binary : Numeral where
  base := 256
  one_lt_base := by decide
  digit := UInt8.toNat
  Valid := fun _ => True
  digit_lt := fun byte _ => byte.toNat_lt

/-- The sums of the flags are those of the columns. -/
theorem Flags.TellSum.adds
    {flags : Flags}
    {carry : Bool}
    {pair : UInt8 × UInt8}
    {result : UInt8}
    (tells : flags.TellSum carry pair result) :
    Numeral.binary.Adds carry pair result flags.carry :=
  ⟨trivial, tells.whole⟩

theorem Flags.TellDifference.subtracts
    {flags : Flags}
    {borrow : Bool}
    {pair : UInt8 × UInt8}
    {result : UInt8}
    (tells : flags.TellDifference borrow pair result) :
    Numeral.binary.Subtracts borrow pair result flags.carry :=
  ⟨trivial, tells.whole⟩

namespace AluOp

theorem add_work
    (carry : Bool)
    (pair : UInt8 × UInt8) :
    AluOp.add.work carry pair fun result flags =>
      flags.TellSum false pair result :=
  work_of_compute nofun (Alu.add_tells pair.1 pair.2 false)

theorem adc_work
    (carry : Bool)
    (pair : UInt8 × UInt8) :
    AluOp.adc.work carry pair fun result flags =>
      flags.TellSum carry pair result :=
  work_of_compute nofun (Alu.add_tells pair.1 pair.2 carry)

theorem sub_work
    (borrow : Bool)
    (pair : UInt8 × UInt8) :
    AluOp.sub.work borrow pair fun result flags =>
      flags.TellDifference false pair result :=
  work_of_compute nofun (Alu.sub_tells pair.1 pair.2 false)

theorem sbc_work
    (borrow : Bool)
    (pair : UInt8 × UInt8) :
    AluOp.sbc.work borrow pair fun result flags =>
      flags.TellDifference borrow pair result :=
  work_of_compute nofun (Alu.sub_tells pair.1 pair.2 borrow)

/-- An addition without the carry is one that has none to take. -/
theorem add_work_adc
    (carry : Bool)
    (pair : UInt8 × UInt8) :
    AluOp.add.work carry pair fun result flags =>
      AluOp.adc.work false pair fun same sameFlags =>
        same = result ∧ sameFlags = flags :=
  work_of_compute nofun (work_of_compute nofun ⟨rfl, rfl⟩)

theorem sub_work_sbc
    (borrow : Bool)
    (pair : UInt8 × UInt8) :
    AluOp.sub.work borrow pair fun result flags =>
      AluOp.sbc.work false pair fun same sameFlags =>
        same = result ∧ sameFlags = flags :=
  work_of_compute nofun (work_of_compute nofun ⟨rfl, rfl⟩)

/-- A comparison leaves the flags of a subtraction and keeps the accumulator. -/
theorem sub_work_cp
    (borrow other : Bool)
    (pair : UInt8 × UInt8) :
    AluOp.sub.work borrow pair fun _ flags =>
      AluOp.cp.work other pair fun kept sameFlags =>
        kept = pair.1 ∧ sameFlags = flags :=
  work_of_compute nofun (work_of_compare ⟨rfl, rfl⟩)

theorem adc_adds
    (carry : Bool)
    (pair : UInt8 × UInt8) :
    AluOp.adc.work carry pair fun result flags =>
      Numeral.binary.Adds carry pair result flags.carry :=
  work_monotone .adc _ _ _ _ (adc_work carry pair)
    fun _ _ tells => tells.adds

theorem add_adds
    (carry : Bool)
    (pair : UInt8 × UInt8) :
    AluOp.add.work carry pair fun result flags =>
      Numeral.binary.Adds false pair result flags.carry :=
  work_monotone .add _ _ _ _ (add_work carry pair)
    fun _ _ tells => tells.adds

theorem sbc_subtracts
    (borrow : Bool)
    (pair : UInt8 × UInt8) :
    AluOp.sbc.work borrow pair fun result flags =>
      Numeral.binary.Subtracts borrow pair result flags.carry :=
  work_monotone .sbc _ _ _ _ (sbc_work borrow pair)
    fun _ _ tells => tells.subtracts

theorem sub_subtracts
    (borrow : Bool)
    (pair : UInt8 × UInt8) :
    AluOp.sub.work borrow pair fun result flags =>
      Numeral.binary.Subtracts false pair result flags.carry :=
  work_monotone .sub _ _ _ _ (sub_work borrow pair)
    fun _ _ tells => tells.subtracts

/--
Whatever machines take their turns on the bytes of two numbers, with the carry flag that
the turn before has left, `ADC` adds and `SBC` subtracts numbers of any length.  A chain
may begin with `ADD` or `SUB`, which do what the others do if there is no carry.  The flags
of every byte tell its carries out of both halves, and those of `CP` are those of `SUB`.
-/
theorem chains_add_and_subtract :
    (∀ carry pairs,
      AluOp.adc.work.Chain carry pairs
        (Numeral.binary.IsSum carry pairs)) ∧
    (∀ borrow pairs,
      AluOp.sbc.work.Chain borrow pairs
        (Numeral.binary.IsDifference borrow pairs)) ∧
    (∀ carry first rest,
      AluOp.add.work.ChainAfter AluOp.adc.work carry first rest
        (Numeral.binary.IsSum false (first :: rest))) ∧
    (∀ borrow first rest,
      AluOp.sub.work.ChainAfter AluOp.sbc.work borrow first rest
        (Numeral.binary.IsDifference false (first :: rest))) ∧
    (∀ carry pair,
      AluOp.adc.work carry pair fun result flags =>
        flags.TellSum carry pair result) ∧
    (∀ borrow pair,
      AluOp.sbc.work borrow pair fun result flags =>
        flags.TellDifference borrow pair result) ∧
    (∀ carry pair,
      AluOp.add.work carry pair fun result flags =>
        AluOp.adc.work false pair fun same sameFlags =>
          same = result ∧ sameFlags = flags) ∧
    (∀ borrow pair,
      AluOp.sub.work borrow pair fun result flags =>
        AluOp.sbc.work false pair fun same sameFlags =>
          same = result ∧ sameFlags = flags) ∧
    (∀ borrow other pair,
      AluOp.sub.work borrow pair fun _ flags =>
        AluOp.cp.work other pair fun kept sameFlags =>
          kept = pair.1 ∧ sameFlags = flags) := by
  refine
    ⟨?_, ?_, ?_, ?_, adc_work, sbc_work, add_work_adc, sub_work_sbc,
      sub_work_cp⟩
  · intro carry pairs
    exact
      Numeral.chain_isSum (work_monotone .adc)
        (fun pair _ carry => adc_adds carry pair) carry
  · intro borrow pairs
    exact
      Numeral.chain_isDifference (work_monotone .sbc)
        (fun pair _ borrow => sbc_subtracts borrow pair) borrow
  · intro carry first rest
    exact
      Numeral.chainAfter_isSum (work_monotone .add) (work_monotone .adc)
        (add_adds carry first) (fun pair _ carry => adc_adds carry pair)
  · intro borrow first rest
    exact
      Numeral.chainAfter_isDifference (work_monotone .sub)
        (work_monotone .sbc) (sub_subtracts borrow first)
        (fun pair _ borrow => sbc_subtracts borrow pair)

end AluOp

/-- A machine whose next instruction, at the last address, adds B and the carry to A. -/
def Machine.addingAtLast
    (left right : UInt8)
    (carry : Bool) :
    Machine where
  cpu :=
    { Cpu.powerOn with
      pc := 0xFFFF
      a := left
      b := right
      flags := { Cpu.powerOn.flags with carry := carry } }
  bus := { Bus.powerOn Cartridge.blank with interruptEnable := 0x88 }

theorem Machine.operates_addingAtLast
    (left right : UInt8)
    (carry : Bool) :
    (addingAtLast left right carry).Operates .adc right :=
  .register ⟨0x88, rfl, rfl⟩ (rfl : Cpu.get _ .b = right)

/-- Two such machines add 1 and the carry to 511, which takes two bytes. -/
theorem AluOp.chains_add_and_subtract_carrying :
    (Machine.addingAtLast 0xFF 0x01 true).Leaves fun low flags =>
      (Machine.addingAtLast 0x01 0x00 flags.carry).Leaves fun high last =>
        Numeral.binary.number [low, high] = 0x0201 ∧ last.carry = false := by
  have chain := chains_add_and_subtract.1 true [(0xFF, 0x01), (0x01, 0x00)]
  obtain ⟨cost, final, succeeded, rest⟩ :=
    chain (.addingAtLast 0xFF 0x01 true) rfl rfl
      (Machine.operates_addingAtLast 0xFF 0x01 true)
  refine ⟨cost, final, succeeded, ?_⟩
  obtain ⟨lastCost, last, lastSucceeded, sum⟩ :=
    rest (.addingAtLast 0x01 0x00 final.cpu.flags.carry) rfl rfl
      (Machine.operates_addingAtLast 0x01 0x00 final.cpu.flags.carry)
  refine ⟨lastCost, last, lastSucceeded, sum.number_eq, ?_⟩
  exact Bool.eq_false_iff.mpr fun carries =>
    absurd (sum.carry_iff.mp carries) (by decide)

end Dmg
