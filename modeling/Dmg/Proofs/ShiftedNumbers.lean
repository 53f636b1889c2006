import Dmg.Proofs.ByteShifts
import Dmg.Proofs.NestedCalls

namespace Dmg

/-!
# Numbers in registers and RAM

The bytes of a number may be kept in registers, in RAM, or some here and some there.  They
are shifted in turn by rotations of one byte each, in registers or at the address in HL,
and the carry flag takes the bits along.  Whatever is done between the rotations makes no
difference as long as it keeps the bytes and the carry flag.
-/

/-- The address leads to a byte of RAM, which reads back what is stored there. -/
def Bus.IsRam
    (bus : Bus)
    (address : UInt16) :
    Prop :=
  match Location.ofAddress address with
  | .videoRam _ | .workRam _ | .objectMemory _ | .highRam _ => True
  | .cartridgeRam offset => bus.cartridge.RamAnswers offset.val
  | _ => False

namespace Bus.IsRam

variable
  {bus : Bus}
  {address : UInt16}
  (isRam : bus.IsRam address)
include isRam

theorem outsideRom : 0x8000 ≤ address.toNat := by
  have here := Location.ofAddress_at address
  unfold IsRam at isRam
  cases location : Location.ofAddress address with
  | lowerRom | upperRom =>
      rw [location] at isRam
      exact isRam.elim
  | _ =>
      simp only [location, Location.At] at here
      omega

theorem found : ∃ byte, bus.read address = .ok byte := by
  unfold IsRam at isRam
  unfold Bus.read
  cases location : Location.ofAddress address with
  | register registerAddress =>
      rw [location] at isRam
      exact isRam.elim
  | _ => exact ⟨_, rfl⟩

theorem read_stored (value : UInt8) :
    (bus.write address value).read address = .ok value := by
  unfold IsRam at isRam
  unfold Bus.write Bus.read
  cases location : Location.ofAddress address with
  | videoRam offset =>
      exact congrArg Except.ok (get_set_same bus.videoRam offset value)
  | workRam offset =>
      exact congrArg Except.ok (get_set_same bus.workRam offset value)
  | objectMemory offset =>
      exact congrArg Except.ok (get_set_same bus.objectMemory offset value)
  | highRam offset =>
      exact congrArg Except.ok (get_set_same bus.highRam offset value)
  | cartridgeRam offset =>
      rw [location] at isRam
      have readBack :=
        bus.cartridge.readRam_writeRam_same offset.val value
      rw [if_pos isRam] at readBack
      exact congrArg Except.ok readBack
  | _ =>
      rw [location] at isRam
      exact isRam.elim

theorem byteAt_stored (value : UInt8) :
    (bus.write address value).byteAt address = value :=
  byteAt_of_read (isRam.read_stored value)

/-- A store leaves the bytes alone that have another canonical address. -/
theorem byteAt_other
    {other : UInt16}
    (apart : canonical other ≠ canonical address)
    (value : UInt8) :
    (bus.write address value).byteAt other = bus.byteAt other := by
  unfold byteAt
  rw [read_write_other isRam.outsideRom apart]

end Bus.IsRam

/-- Where a byte of a number is kept. -/
inductive Cell where
  | register (name : Register)
  | memory (address : UInt16)
  deriving Repr, DecidableEq

/-- An address of the echo stands for the same cell as the address that it echoes. -/
def Cell.canonical : Cell → Cell
  | .register name => .register name
  | .memory address => .memory (Bus.canonical address)

namespace Machine

/-- The byte in a cell. -/
def byteIn (machine : Machine) : Cell → UInt8
  | .register name => machine.cpu.get name
  | .memory address => machine.bus.byteAt address

/-- The bytes of the number that is kept in some cells. -/
def bytesIn
    (machine : Machine)
    (cells : List Cell) :
    List UInt8 :=
  cells.map machine.byteIn

/-- From one machine to the other the bytes in some cells and the carry are the same. -/
structure KeepsNumber
    (cells : List Cell)
    (before after : Machine) :
    Prop where
  carry : after.cpu.flags.carry = before.cpu.flags.carry
  bytes : ∀ cell ∈ cells, after.byteIn cell = before.byteIn cell

theorem KeepsNumber.refl
    (cells : List Cell)
    (machine : Machine) :
    KeepsNumber cells machine machine where
  carry := rfl
  bytes := fun _ _ => rfl

/-- The next instruction has two bytes, of which the second one tells what it is. -/
structure BeginsPrefixed
    (machine : Machine)
    (instruction : Prefixed) :
    Prop where
  begins : machine.Begins (.irregular .prefixed)
  found :
    ∃ byte,
      machine.bus.read (machine.cpu.pc + 1) = .ok byte ∧
        Prefixed.ofByte byte = instruction

/--
The next instruction rotates the byte in a cell.  For the accumulator there are also
instructions of one byte.
-/
inductive AtRotation
    (machine : Machine)
    (rotation : Rotation) :
    Cell → Prop
  | register
      {name : Register}
      (begins : machine.BeginsPrefixed (.rotate rotation (.register name))) :
      machine.AtRotation rotation (.register name)
  | memory
      {address : UInt16}
      (begins : machine.BeginsPrefixed (.rotate rotation .memory))
      (pointer : machine.cpu.hl = address)
      (isRam : machine.bus.IsRam address) :
      machine.AtRotation rotation (.memory address)
  | accumulator
      (begins : machine.Begins (.irregular (.rotateAccumulator rotation))) :
      machine.AtRotation rotation (.register .a)

/-- The byte in a cell has been rotated, and those in the other cells are as before. -/
structure Rotated
    (rotation : Rotation)
    (cell : Cell)
    (before after : Machine) :
    Prop where
  shifted :
    rotation.apply (before.byteIn cell) before.cpu.flags.carry =
      ⟨after.byteIn cell, after.cpu.flags.carry⟩
  others :
    ∀ other : Cell, other.canonical ≠ cell.canonical →
      after.byteIn other = before.byteIn other

/--
The machine rotates the bytes in some cells in turn, by an instruction each, and comes to
be as described.  Anything may be done before the next rotation that keeps the bytes of
the number and the carry.
-/
def Rotates
    (cells : List Cell) :
    List (Rotation × Cell) → (Machine → Prop) → Machine → Prop
  | [], reached, machine => reached machine
  | (rotation, cell) :: rest, reached, machine =>
      machine.AtRotation rotation cell →
        ∃ cost final,
          machine.perform .executeNext = .ok cost final ∧
            ∀ next : Machine,
              KeepsNumber cells final.toMachine next →
                Rotates cells rest reached next

variable
  {machine : Machine}
  {rotation : Rotation}
  {instruction : Prefixed}
  {cell : Cell}

/-- An instruction of two bytes is carried out if a byte is found where its operand lies. -/
theorem BeginsPrefixed.succeeds
    (beginsPrefixed : machine.BeginsPrefixed instruction)
    (operandFound :
      ∀ address ∈ instruction.operand.readAddresses machine.cpu,
        ∃ byte, machine.bus.read address = .ok byte) :
    ∃ opcode,
      machine.perform .executeNext =
        .ok instruction.cost
          (instruction.finish
            ((Execution.start machine).beginning opcode).fetching) := by
  obtain ⟨begins, byte, byteFound, decoded⟩ := beginsPrefixed
  have isByte : machine.bus.byteAt (machine.cpu.pc + 1) = byte :=
    Bus.byteAt_of_read byteFound
  have ahead : machine.behindOpcode.prefixedAhead = instruction := by
    rw [← decoded, ← isByte]
    rfl
  have found :
      ∀ address ∈
          Instruction.readAddresses machine.behindOpcode.cpu machine.bus
            (.irregular .prefixed),
        ∃ byte, machine.bus.read address = .ok byte := by
    rw [← ahead] at operandFound
    exact List.forall_mem_cons.mpr ⟨⟨byte, byteFound⟩, operandFound⟩
  obtain ⟨opcode, succeeded⟩ := executeNext_of_begins begins found
  refine ⟨opcode, succeeded.trans ?_⟩
  rw [← ahead]
  rfl

namespace Rotated

variable {after : Machine}

theorem of_register
    {name : Register}
    {address : UInt16}
    {value : UInt8}
    {flags : Flags}
    (shifted :
      rotation.apply (machine.cpu.get name) machine.cpu.flags.carry =
        ⟨value, flags.carry⟩)
    (cpu :
      after.cpu =
        ((machine.cpu.goingTo address).set name value).withFlags flags)
    (bus : after.bus = machine.bus) :
    Rotated rotation (.register name) machine after where
  shifted := by
    rw [byteIn, byteIn, cpu, Cpu.get_withFlags, Cpu.get_set_same]
    exact shifted
  others := by
    intro other apart
    cases other with
    | register otherName =>
        have different : otherName ≠ name := fun same =>
          apart (congrArg Cell.register same)
        rw [byteIn, byteIn, cpu, Cpu.get_withFlags,
          Cpu.get_set_other different, Cpu.get_goingTo]
    | memory address => exact congrArg (·.byteAt address) bus

theorem of_memory
    {value : UInt8}
    (isRam : machine.bus.IsRam machine.cpu.hl)
    (shifted :
      rotation.apply (machine.bus.byteAt machine.cpu.hl)
          machine.cpu.flags.carry =
        ⟨value, after.cpu.flags.carry⟩)
    (registers : ∀ name, after.cpu.get name = machine.cpu.get name)
    (bus : after.bus = machine.bus.write machine.cpu.hl value) :
    Rotated rotation (.memory machine.cpu.hl) machine after where
  shifted := by
    rw [byteIn, byteIn, bus, isRam.byteAt_stored]
    exact shifted
  others := by
    intro other apart
    cases other with
    | register name => exact registers name
    | memory address =>
        have different :
            Bus.canonical address ≠ Bus.canonical machine.cpu.hl := fun same =>
          apart (congrArg Cell.memory same)
        rw [byteIn, byteIn, bus]
        exact isRam.byteAt_other different value

end Rotated

/-- A rotation succeeds and rotates the byte in its cell. -/
theorem AtRotation.succeeds (atRotation : machine.AtRotation rotation cell) :
    ∃ cost final,
      machine.perform .executeNext = .ok cost final ∧
        Rotated rotation cell machine final.toMachine := by
  cases atRotation with
  | @register name begins =>
      obtain ⟨opcode, succeeded⟩ := begins.succeeds nofun
      exact ⟨_, _, succeeded, .of_register rfl rfl rfl⟩
  | memory begins pointer isRam =>
      obtain rfl := pointer
      obtain ⟨opcode, succeeded⟩ :=
        begins.succeeds (List.forall_mem_singleton.mpr isRam.found)
      exact ⟨_, _, succeeded, .of_memory isRam rfl (fun _ => rfl) rfl⟩
  | accumulator begins =>
      obtain ⟨opcode, succeeded⟩ := executeNext_of_begins begins nofun
      exact ⟨_, _, succeeded, .of_register rfl rfl rfl⟩

namespace Rotates

variable
  {cells : List Cell}
  {tasks : List (Rotation × Cell)}
  {reached other : Machine → Prop}

theorem mono
    (rotates : machine.Rotates cells tasks reached)
    (implies : ∀ final, reached final → other final) :
    machine.Rotates cells tasks other := by
  induction tasks generalizing machine with
  | nil => exact implies machine rotates
  | cons task rest inductionHypothesis =>
      intro atRotation
      obtain ⟨cost, final, succeeded, continues⟩ := rotates atRotation
      refine ⟨cost, final, succeeded, ?_⟩
      intro next keeps
      exact inductionHypothesis (continues next keeps)

/-- Rotations may be followed by others. -/
theorem append
    {further : List (Rotation × Cell)}
    (rotates :
      machine.Rotates cells tasks fun middle =>
        middle.Rotates cells further reached) :
    machine.Rotates cells (tasks ++ further) reached := by
  induction tasks generalizing machine with
  | nil => exact rotates
  | cons task rest inductionHypothesis =>
      intro atRotation
      obtain ⟨cost, final, succeeded, continues⟩ := rotates atRotation
      refine ⟨cost, final, succeeded, ?_⟩
      intro next keeps
      exact inductionHypothesis (continues next keeps)

end Rotates

/--
What an instruction of one byte leaves that rotates the accumulator, beside what one of two
bytes leaves.
-/
structure AccumulatorRotated
    (plain prefixed plainFinal prefixedFinal : Machine) :
    Prop where
  plainBus : plainFinal.bus = plain.bus
  prefixedBus : prefixedFinal.bus = prefixed.bus
  same :
    plainFinal.cpu =
      { prefixedFinal.cpu with
        pc := plain.cpu.pc + 1
        flags := { prefixedFinal.cpu.flags with zero := false } }
  address : prefixedFinal.cpu.pc = prefixed.cpu.pc + 2
  zero : prefixedFinal.cpu.flags.zero = (prefixedFinal.cpu.a == 0)

/-- What the rotations make of the bytes of a number and of the carry. -/
structure RotatedInTurn
    (cells : List Cell)
    (tasks : List (Rotation × Cell))
    (before after : Machine) :
    Prop where
  shifted :
    Rotation.applyInTurn before.cpu.flags.carry
        (tasks.map fun task => (task.1, before.byteIn task.2)) =
      ⟨after.bytesIn (tasks.map Prod.snd), after.cpu.flags.carry⟩
  others :
    ∀ cell ∈ cells, cell ∉ tasks.map Prod.snd →
      after.byteIn cell = before.byteIn cell

/-- Rotations of different cells rotate the bytes in them in turn. -/
theorem rotates
    {cells : List Cell}
    {tasks : List (Rotation × Cell)}
    (apart : (cells.map Cell.canonical).Nodup)
    (known : tasks.map Prod.snd ⊆ cells)
    (once : (tasks.map Prod.snd).Nodup)
    (machine : Machine) :
    machine.Rotates cells tasks (RotatedInTurn cells tasks machine) := by
  induction tasks generalizing machine with
  | nil => exact ⟨rfl, fun _ _ _ => rfl⟩
  | cons task rest inductionHypothesis =>
      obtain ⟨rotation, cell⟩ := task
      rw [List.map_cons] at known once
      obtain ⟨cellKnown, restKnown⟩ := List.cons_subset.mp known
      obtain ⟨cellElsewhere, restOnce⟩ := List.nodup_cons.mp once
      intro atRotation
      obtain ⟨cost, final, succeeded, rotated⟩ := atRotation.succeeds
      refine ⟨cost, final, succeeded, ?_⟩
      intro next keeps
      -- The rotation has left the cells alone whose turn has not come.
      have same {other : Cell} (otherKnown : other ∈ cells)
          (different : other ≠ cell) :
          next.byteIn other = machine.byteIn other := by
        have apartFrom : other.canonical ≠ cell.canonical := fun equal =>
          different
            (List.inj_on_of_nodup_map apart otherKnown cellKnown equal)
        exact (keeps.bytes other otherKnown).trans
          (rotated.others other apartFrom)
      have sameRest :
          rest.map (fun task => (task.1, next.byteIn task.2)) =
            rest.map (fun task => (task.1, machine.byteIn task.2)) := by
        apply List.map_congr_left
        intro task member
        have inRest := List.mem_map_of_mem (f := Prod.snd) member
        rw [same (restKnown inRest)]
        rintro rfl
        exact cellElsewhere inRest
      refine (inductionHypothesis restKnown restOnce next).mono ?_
      rintro last ⟨shifted, others⟩
      rw [sameRest, keeps.carry] at shifted
      have kept : last.byteIn cell = final.byteIn cell :=
        (others cell cellKnown cellElsewhere).trans
          (keeps.bytes cell cellKnown)
      constructor
      · rw [List.map_cons, Rotation.applyInTurn, rotated.shifted]
        dsimp only
        rw [shifted, ← kept]
        rfl
      · intro other otherKnown otherElsewhere
        rw [List.map_cons, List.mem_cons, not_or] at otherElsewhere
        exact (others other otherKnown otherElsewhere.2).trans
          (same otherKnown otherElsewhere.1)

@[simp]
theorem length_bytesIn
    (machine : Machine)
    (cells : List Cell) :
    (machine.bytesIn cells).length = cells.length :=
  List.length_map machine.byteIn

@[simp]
theorem bytesIn_reverse
    (machine : Machine)
    (cells : List Cell) :
    machine.bytesIn cells.reverse = (machine.bytesIn cells).reverse :=
  List.map_reverse

theorem bytesIn_nonempty
    {cells : List Cell}
    (nonempty : cells ≠ [])
    (machine : Machine) :
    machine.bytesIn cells ≠ [] :=
  mt List.map_eq_nil_iff.mp nonempty

section Orders

variable
  {cells order : List Cell}
  (first following : Rotation)

/-- In whatever order the cells are rotated, their bytes are shifted in that order. -/
theorem rotates_inTurn
    (apart : (cells.map Cell.canonical).Nodup)
    (ordered : order.Perm cells)
    (machine : Machine) :
    machine.Rotates cells (Rotation.inTurn first following order)
      fun final =>
        Rotation.applyInTurn machine.cpu.flags.carry
            (Rotation.inTurn first following (machine.bytesIn order)) =
          ⟨final.bytesIn order, final.cpu.flags.carry⟩ := by
  have places :
      (Rotation.inTurn first following order).map Prod.snd = order := by
    cases order <;> simp [Rotation.inTurn]
  have bytes :
      (Rotation.inTurn first following order).map
          (fun task => (task.1, machine.byteIn task.2)) =
        Rotation.inTurn first following (machine.bytesIn order) := by
    cases order <;> simp [Rotation.inTurn, bytesIn]
  have once : order.Nodup :=
    ordered.nodup_iff.mpr (List.Nodup.of_map Cell.canonical apart)
  refine Rotates.mono (rotates apart ?_ ?_ machine) ?_
  · rw [places]
    exact ordered.subset
  · rw [places]
    exact once
  rintro final ⟨shifted, -⟩
  rw [bytes, places] at shifted
  exact shifted

end Orders

section Numbers

open Numeral

variable
  {cells : List Cell}
  (apart : (cells.map Cell.canonical).Nodup)
  (machine : Machine)
include apart

/-- SLA and then RL from the lowest byte upwards double a number. -/
theorem rotates_sla_rl (nonempty : cells ≠ []) :
    machine.Rotates cells (Rotation.inTurn .sla .rl cells)
      fun final =>
        binary.number (final.bytesIn cells) =
            2 * binary.number (machine.bytesIn cells) %
              256 ^ cells.length ∧
          final.cpu.flags.carry = topBit (machine.bytesIn cells) := by
  refine
    (rotates_inTurn .sla .rl apart (.refl cells) machine).mono
      fun final shifted => ?_
  have doubled :=
    Rotation.sla_rl_doubles machine.cpu.flags.carry
      (bytesIn_nonempty nonempty machine)
  rw [shifted, length_bytesIn] at doubled
  exact doubled

/-- SRL and then RR from the highest byte downwards halve a number. -/
theorem rotates_srl_rr (nonempty : cells ≠ []) :
    machine.Rotates cells (Rotation.inTurn .srl .rr cells.reverse)
      fun final =>
        binary.number (final.bytesIn cells) =
            binary.number (machine.bytesIn cells) / 2 ∧
          final.cpu.flags.carry = bottomBit (machine.bytesIn cells) := by
  refine
    (rotates_inTurn .srl .rr apart cells.reverse_perm machine).mono
      fun final shifted => ?_
  have halved :=
    Rotation.srl_rr_halves machine.cpu.flags.carry
      (bytesIn_nonempty (mt List.reverse_eq_nil_iff.mp nonempty) machine)
  rw [shifted] at halved
  simpa using halved

/-- SRA and then RR from the highest byte downwards halve a signed number. -/
theorem rotates_sra_rr (nonempty : cells ≠ []) :
    machine.Rotates cells (Rotation.inTurn .sra .rr cells.reverse)
      fun final =>
        signed (final.bytesIn cells) =
            signed (machine.bytesIn cells) / 2 ∧
          final.cpu.flags.carry = bottomBit (machine.bytesIn cells) := by
  refine
    (rotates_inTurn .sra .rr apart cells.reverse_perm machine).mono
      fun final shifted => ?_
  have halved :=
    Rotation.sra_rr_halves_signed machine.cpu.flags.carry
      (bytesIn_nonempty (mt List.reverse_eq_nil_iff.mp nonempty) machine)
  rw [shifted] at halved
  simpa using halved

/-- RL upwards and then RR downwards leave a number and the carry as they were. -/
theorem rotates_rl_rr :
    machine.Rotates cells
      (cells.map (.rl, ·) ++ cells.reverse.map (.rr, ·))
      fun final =>
        final.bytesIn cells = machine.bytesIn cells ∧
          final.cpu.flags.carry = machine.cpu.flags.carry := by
  have upwards := rotates_inTurn .rl .rl apart (.refl cells) machine
  have downwards := rotates_inTurn .rr .rr apart cells.reverse_perm
  simp only [Rotation.inTurn_same] at upwards downwards
  refine Rotates.append (upwards.mono fun middle up => ?_)
  refine (downwards middle).mono fun final down => ?_
  have undone :=
    Rotation.rr_undoes_rl machine.cpu.flags.carry (machine.bytesIn cells)
  rw [bytesIn_reverse] at down
  simp only [up, down] at undone
  simpa using undone

end Numbers

/--
A rotation of the accumulator by one byte and the one by two bytes differ only in their
lengths and costs and in the zero flag.
-/
theorem AccumulatorRotated.of_begins
    {plain prefixed : Machine}
    {address : UInt16}
    (sameCpu : prefixed.cpu = plain.cpu.goingTo address)
    (begins : plain.Begins (.irregular (.rotateAccumulator rotation)))
    (beginsPrefixed :
      prefixed.BeginsPrefixed (.rotate rotation (.register .a))) :
    ∃ plainFinal prefixedFinal,
      plain.perform .executeNext = .ok 4 plainFinal ∧
        prefixed.perform .executeNext = .ok 8 prefixedFinal ∧
        AccumulatorRotated plain prefixed plainFinal.toMachine
          prefixedFinal.toMachine := by
  obtain ⟨_, plainSucceeded⟩ := executeNext_of_begins begins nofun
  obtain ⟨_, prefixedSucceeded⟩ := beginsPrefixed.succeeds nofun
  refine ⟨_, _, plainSucceeded, prefixedSucceeded, ?_⟩
  obtain ⟨cpu, bus⟩ := prefixed
  obtain rfl : cpu = plain.cpu.goingTo address := sameCpu
  exact
    { plainBus := rfl
      prefixedBus := rfl
      same := rfl
      address := UInt16.add_assoc address 1 1
      zero := rfl }

/--
Numbers of any length in registers and RAM are doubled and halved by shifting their bytes
in turn.
-/
theorem rotations_shift_numbers :
    (∀ (machine : Machine) (cells : List Cell),
      cells ≠ [] → (cells.map Cell.canonical).Nodup →
        machine.Rotates cells (Rotation.inTurn .sla .rl cells)
            (fun final =>
              Numeral.binary.number (final.bytesIn cells) =
                  2 * Numeral.binary.number (machine.bytesIn cells) %
                    256 ^ cells.length ∧
                final.cpu.flags.carry =
                  Numeral.topBit (machine.bytesIn cells)) ∧
          machine.Rotates cells (Rotation.inTurn .srl .rr cells.reverse)
            (fun final =>
              Numeral.binary.number (final.bytesIn cells) =
                  Numeral.binary.number (machine.bytesIn cells) / 2 ∧
                final.cpu.flags.carry =
                  Numeral.bottomBit (machine.bytesIn cells)) ∧
          machine.Rotates cells (Rotation.inTurn .sra .rr cells.reverse)
            (fun final =>
              Numeral.signed (final.bytesIn cells) =
                  Numeral.signed (machine.bytesIn cells) / 2 ∧
                final.cpu.flags.carry =
                  Numeral.bottomBit (machine.bytesIn cells)) ∧
          machine.Rotates cells
            (cells.map (.rl, ·) ++ cells.reverse.map (.rr, ·))
            (fun final =>
              final.bytesIn cells = machine.bytesIn cells ∧
                final.cpu.flags.carry = machine.cpu.flags.carry)) ∧
      (∀ (rotation : Rotation)
          (plain prefixed : Machine)
          (address : UInt16),
        prefixed.cpu = plain.cpu.goingTo address →
          plain.Begins (.irregular (.rotateAccumulator rotation)) →
            prefixed.BeginsPrefixed (.rotate rotation (.register .a)) →
              ∃ plainFinal prefixedFinal,
                plain.perform .executeNext = .ok 4 plainFinal ∧
                  prefixed.perform .executeNext = .ok 8 prefixedFinal ∧
                  AccumulatorRotated plain prefixed
                    plainFinal.toMachine prefixedFinal.toMachine) := by
  refine ⟨?_, ?_⟩
  · intro machine cells nonempty apart
    exact
      ⟨rotates_sla_rl apart machine nonempty,
        rotates_srl_rr apart machine nonempty,
        rotates_sra_rr apart machine nonempty,
        rotates_rl_rr apart machine⟩
  · intro rotation plain prefixed address sameCpu begins beginsPrefixed
    exact AccumulatorRotated.of_begins sameCpu begins beginsPrefixed

/--
A machine that doubles the number 0xC081, whose low byte is at 0xFFF0 and whose high byte is
in the accumulator, and then halves it as a signed number.
-/
def shifting : Machine where
  cpu :=
    { Cpu.powerOn with
      a := 0xC0
      h := 0xFF
      l := 0xF0
      pc := 0xFF80 }
  bus :=
    { Bus.powerOn Cartridge.blank with
      highRam :=
        Vector.ofFn fun place =>
          match place.val with
          | 0x00 => 0xCB
          | 0x01 => 0x26
          | 0x02 => 0x17
          | 0x03 => 0xCB
          | 0x04 => 0x2F
          | 0x05 => 0xCB
          | 0x06 => 0x1E
          | 0x10 => 0xCB
          | 0x11 => 0x17
          | 0x70 => 0x81
          | _ => 0 }

/-- The bytes of the number that is shifted there. -/
def shiftingCells : List Cell :=
  [.memory 0xFFF0, .register .a]

/--
The double of 0xC081 is 0x8102 and a carry.  Half of that is again 0xC081, which is signed
here.  The accumulator might also be rotated by the instruction at 0xFF90.
-/
theorem rotations_shift_numbers_shifting :
    Numeral.binary.number (shifting.next.next.bytesIn shiftingCells) =
        0x8102 ∧
      shifting.next.next.cpu.flags.carry = true ∧
      Numeral.signed
          (shifting.next.next.next.next.bytesIn shiftingCells) =
        -16255 ∧
      shifting.next.next.next.next.cpu.flags.carry = false ∧
      AccumulatorRotated shifting.next
        { shifting.next with cpu := shifting.next.cpu.goingTo 0xFF90 }
        shifting.next.next
        (next
          { shifting.next with
            cpu := shifting.next.cpu.goingTo 0xFF90 }) := by
  obtain ⟨shifts, accumulator⟩ := rotations_shift_numbers
  have low : shifting.AtRotation .sla (.memory 0xFFF0) :=
    .memory ⟨⟨0xCB, by decide +kernel, rfl⟩, 0x26, by decide +kernel, rfl⟩
      (by decide +kernel) trivial
  have plain : shifting.next.Begins (.irregular (.rotateAccumulator .rl)) :=
    ⟨0x17, by decide +kernel, rfl⟩
  have high : shifting.next.next.AtRotation .sra (.register .a) :=
    .register
      ⟨⟨0xCB, by decide +kernel, rfl⟩, 0x2F, by decide +kernel, rfl⟩
  have lowAgain :
      shifting.next.next.next.AtRotation .rr (.memory 0xFFF0) :=
    .memory ⟨⟨0xCB, by decide +kernel, rfl⟩, 0x1E, by decide +kernel, rfl⟩
      (by decide +kernel) trivial
  obtain ⟨doubles, -⟩ :=
    shifts shifting shiftingCells (by decide) (by decide +kernel)
  obtain ⟨-, -, halves, -⟩ :=
    shifts shifting.next.next shiftingCells (by decide) (by decide +kernel)
  obtain ⟨_, _, succeeded, continues⟩ := doubles low
  rw [next_of_succeeded succeeded] at continues
  obtain ⟨_, _, succeeded, continues⟩ :=
    continues _ (.refl _ _) (.accumulator plain)
  rw [next_of_succeeded succeeded] at continues
  obtain ⟨doubled, doubledCarry⟩ := continues _ (.refl _ _)
  obtain ⟨_, _, succeeded, continues⟩ := halves high
  rw [next_of_succeeded succeeded] at continues
  obtain ⟨_, _, succeeded, continues⟩ := continues _ (.refl _ _) lowAgain
  rw [next_of_succeeded succeeded] at continues
  obtain ⟨halved, halvedCarry⟩ := continues _ (.refl _ _)
  obtain ⟨_, _, plainSucceeded, prefixedSucceeded, differ⟩ :=
    accumulator .rl shifting.next
      { shifting.next with cpu := shifting.next.cpu.goingTo 0xFF90 } 0xFF90
      rfl plain
      ⟨⟨0xCB, by decide +kernel, rfl⟩, 0x17, by decide +kernel, rfl⟩
  rw [next_of_succeeded plainSucceeded,
    next_of_succeeded prefixedSucceeded] at differ
  exact
    ⟨doubled.trans (by decide +kernel),
      doubledCarry.trans (by decide +kernel),
      halved.trans (by decide +kernel),
      halvedCarry.trans (by decide +kernel), differ⟩

end Machine

end Dmg
