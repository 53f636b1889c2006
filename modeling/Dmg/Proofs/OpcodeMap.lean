import Dmg.Proofs.InstructionReads
import Dmg.Proofs.InstructionShortfall

namespace Dmg

/-!
# Which instructions are rejected

The tables of the irregular and of the regular instructions and the list of the holes
cover the opcodes without a gap, so exactly the eleven holes are rejected.  Beyond that
an instruction can only meet an address that it reads and that no register answers; it
ends at the first such address.
-/

open Dmg.Action

/--
The addresses that the next instruction reads: its opcode, and what it reads besides if
all of that is answered.  A hole is read and nothing else.
-/
def Machine.readAddresses (machine : Machine) : List UInt16 :=
  machine.cpu.pc ::
    match
      Instruction.ofOpcode? (machine.bus.byteAt machine.cpu.pc)
    with
    | some instruction =>
        instruction.readAddresses
          { machine.cpu with pc := machine.cpu.pc + 1 } machine.bus
    | none => []

/-- The instruction that the byte at the program counter stands for. -/
def Machine.nextInstruction? (machine : Machine) : Option Instruction :=
  Instruction.ofOpcode? (machine.bus.byteAt machine.cpu.pc)

namespace Action

/-- The next instruction reads its addresses, and fails only at one of them or at a hole. -/
theorem executeNext_reads (start : Execution) :
    Ensures executeNext start
      (fun _ final =>
        firstUnanswered? start.readAddresses = none ∧
          final.consulted = start.consulted ++ start.readAddresses ∧
          ∃ instruction,
            start.nextInstruction? = some instruction ∧
              final.cpu.pendingIme =
                instruction.pendingAfter start.cpu.pendingIme)
      (fun fault final =>
        final.consulted =
            start.consulted ++ untilUnanswered start.readAddresses ∧
          ((∃ address,
              firstUnanswered? start.readAddresses = some address ∧
                fault = .unimplementedRegister address) ∨
            firstUnanswered? start.readAddresses = none ∧
              start.nextInstruction? = none ∧
              fault =
                .unimplementedOpcode
                  (start.bus.byteAt start.cpu.pc) start.cpu.pc)) := by
  unfold executeNext Machine.readAddresses Machine.nextInstruction?
  rw [ensures_bind, ensures_cpu]
  cases decoded : Instruction.ofOpcode? (start.bus.byteAt start.cpu.pc) with
  | none =>
      have fetched := @consults_fetchByte start
      refine (ensures_bind _ _).mpr (Ensures.mono fetched ?_ ?_)
      · rintro _ _ ⟨answered, consulted, rfl, rfl⟩
        simp only [ensures_bind, ensures_cpu, ensures_record, decoded,
          ensures_throw]
        refine ⟨?_, .inr ⟨answered, trivial, trivial⟩⟩
        rw [untilUnanswered_eq_self answered]
        exact consulted
      · rintro fault final ⟨address, missing, consulted, named⟩
        exact ⟨consulted, .inl ⟨address, missing, named⟩⟩
  | some instruction =>
      have executed :
          Consults
            (fetchByte >>= fun opcode => do
              record (.instruction start.cpu.pc opcode (← cpu))
              match Instruction.ofOpcode? opcode with
              | some instruction => instruction.execute
              | none =>
                  throw (.unimplementedOpcode opcode start.cpu.pc))
            start
            (start.cpu.pc ::
              instruction.readAddresses
                { start.cpu with pc := start.cpu.pc + 1 } start.bus)
            (fun _ final =>
              final.cpu.pendingIme =
                instruction.pendingAfter start.cpu.pendingIme) := by
        refine consults_fetchByte.bind ?_
        rintro _ _ ⟨rfl, rfl⟩
        unfold Consults
        simp only [ensures_bind, ensures_cpu, ensures_record, decoded]
        exact instruction.execute_consults (start.beginning _)
      refine Ensures.mono executed ?_ ?_
      · rintro cost final ⟨answered, consulted, pending⟩
        exact ⟨answered, consulted, instruction, rfl, pending⟩
      · rintro fault final ⟨address, missing, consulted, named⟩
        exact ⟨consulted, .inl ⟨address, missing, named⟩⟩

end Action

namespace Opcode

/-- The holes are the opcodes that neither table has an instruction for. -/
theorem mem_holes_iff (opcode : Opcode) :
    opcode ∈ holes ↔
      Irregular.ofOpcode? opcode = none ∧
        Regular.ofOpcode? opcode = none := by
  have everyByte :
      ∀ byte : Fin 256,
        UInt8.ofFin byte ∈ holes ↔
          Irregular.ofOpcode? (.ofFin byte) = none ∧
            Regular.ofOpcode? (.ofFin byte) = none := by
    decide +kernel
  exact everyByte opcode.toFin

/-- The field of an opcode that names a pair is the code of one, in all three tables. -/
theorem code_of_p (opcode : Opcode) :
    (Pair.ofCode (p opcode)).code = p opcode ∧
      (StackPair.ofCode (p opcode)).code = p opcode ∧
      (Pointer.ofCode (p opcode)).code = p opcode := by
  have everyByte :
      ∀ byte : Fin 256,
        (Pair.ofCode (p (.ofFin byte))).code = p (.ofFin byte) ∧
          (StackPair.ofCode (p (.ofFin byte))).code = p (.ofFin byte) ∧
          (Pointer.ofCode (p (.ofFin byte))).code = p (.ofFin byte) := by
    decide +kernel
  exact everyByte opcode.toFin

end Opcode

/-- An opcode stands for no instruction exactly if it is one of the holes. -/
theorem Instruction.ofOpcode?_eq_none_iff (opcode : Opcode) :
    ofOpcode? opcode = none ↔ opcode ∈ Opcode.holes := by
  unfold ofOpcode? Opcode.isHole
  by_cases hole : opcode ∈ Opcode.holes
  · simp [hole]
  · have covered := mt (Opcode.mem_holes_iff opcode).mpr hole
    cases irregular : Irregular.ofOpcode? opcode with
    | some instruction => simp [hole]
    | none => simp [hole, irregular] at covered ⊢; exact covered

namespace Machine

variable {machine : Machine}

/-- What the next instruction comes to, told by the addresses that it reads. -/
theorem executeNext_trichotomy (machine : Machine) :
    (firstUnanswered? machine.readAddresses = none ∧
        machine.nextInstruction? ≠ none ∧
        ∃ cost final,
          machine.perform .executeNext = .ok cost final ∧
            final.consulted = machine.readAddresses) ∨
      (∃ address final,
        firstUnanswered? machine.readAddresses = some address ∧
          machine.perform .executeNext =
            .error (.unimplementedRegister address) final ∧
          final.consulted = untilUnanswered machine.readAddresses) ∨
      (firstUnanswered? machine.readAddresses = none ∧
        machine.nextInstruction? = none ∧
        ∃ final,
          machine.perform .executeNext =
              .error
                (.unimplementedOpcode
                  (machine.bus.byteAt machine.cpu.pc) machine.cpu.pc)
                final ∧
            final.consulted = machine.readAddresses) := by
  have read := Action.executeNext_reads (.start machine)
  cases ran : machine.perform .executeNext with
  | ok cost final =>
      obtain ⟨answered, consulted, instruction, decoded, -⟩ := read.of_ok ran
      have stands : machine.nextInstruction? = some instruction := decoded
      exact .inl ⟨answered, by simp [stands], cost, final, rfl, consulted⟩
  | error fault final =>
      obtain ⟨consulted, failed⟩ := read.of_error ran
      rcases failed with ⟨address, missing, rfl⟩ | ⟨answered, hole, rfl⟩
      · exact .inr (.inl ⟨address, final, missing, rfl, consulted⟩)
      · rw [untilUnanswered_eq_self answered] at consulted
        exact .inr (.inr ⟨answered, hole, final, rfl, consulted⟩)

/-- If all addresses are answered, the opcode is the byte that is found at its address. -/
theorem read_pc
    (answered : firstUnanswered? machine.readAddresses = none) :
    machine.bus.read machine.cpu.pc =
      .ok (machine.bus.byteAt machine.cpu.pc) := by
  unfold firstUnanswered? readAddresses at answered
  simp only [List.find?_eq_none, List.forall_mem_cons,
    decide_eq_true_eq] at answered
  rw [Bus.read_eq, if_neg answered.1]

/-- A hole that can be read is all that is read. -/
theorem readAddresses_of_hole
    {opcode : Opcode}
    (found : machine.bus.read machine.cpu.pc = .ok opcode)
    (hole : opcode ∈ Opcode.holes) :
    firstUnanswered? machine.readAddresses = none ∧
      machine.nextInstruction? = none := by
  have isByte := Bus.byteAt_of_read found
  have undecoded : machine.nextInstruction? = none := by
    rw [nextInstruction?, isByte]
    exact (Instruction.ofOpcode?_eq_none_iff opcode).mpr hole
  have answered := Bus.answered_of_read found
  unfold nextInstruction? at undecoded
  simp [firstUnanswered?, readAddresses, nextInstruction?, undecoded,
    answered]

/-- An instruction is rejected exactly if its opcode is read and is a hole. -/
theorem executeNext_unimplementedOpcode_iff
    (machine : Machine)
    (opcode : UInt8)
    (address : UInt16) :
    (∃ final,
        machine.perform .executeNext =
          .error (.unimplementedOpcode opcode address) final) ↔
      machine.bus.read machine.cpu.pc = .ok opcode ∧
        opcode ∈ Opcode.holes ∧
        address = machine.cpu.pc := by
  constructor
  · rintro ⟨final, rejected⟩
    rcases machine.executeNext_trichotomy with
      ⟨-, -, _, _, ran, -⟩ | ⟨_, _, -, ran, -⟩ |
        ⟨answered, undecoded, _, ran, -⟩
    · cases rejected.symm.trans ran
    · cases rejected.symm.trans ran
    · cases rejected.symm.trans ran
      exact ⟨read_pc answered,
        (Instruction.ofOpcode?_eq_none_iff _).mp undecoded, rfl⟩
  · rintro ⟨found, hole, rfl⟩
    obtain ⟨answered, undecoded⟩ := readAddresses_of_hole found hole
    rcases machine.executeNext_trichotomy with
      ⟨-, decoded, -⟩ | ⟨_, _, missing, -⟩ | ⟨-, -, final, ran, -⟩
    · exact (decoded undecoded).elim
    · cases answered.symm.trans missing
    · cases found.symm.trans (read_pc answered)
      exact ⟨final, ran⟩

/-- An instruction ends at the first address that it reads and that is not answered. -/
theorem executeNext_unimplementedRegister_iff
    (machine : Machine)
    (address : UInt16) :
    (∃ final,
        machine.perform .executeNext =
          .error (.unimplementedRegister address) final) ↔
      firstUnanswered? machine.readAddresses = some address := by
  constructor
  · rintro ⟨final, failed⟩
    rcases machine.executeNext_trichotomy with
      ⟨-, -, _, _, ran, -⟩ | ⟨_, _, missing, ran, -⟩ | ⟨-, -, _, ran, -⟩
    · cases failed.symm.trans ran
    · cases failed.symm.trans ran
      exact missing
    · cases failed.symm.trans ran
  · intro missing
    rcases machine.executeNext_trichotomy with
      ⟨answered, -⟩ | ⟨_, final, missing', ran, -⟩ | ⟨answered, -⟩
    · cases answered.symm.trans missing
    · cases missing'.symm.trans missing
      exact ⟨final, ran⟩
    · cases answered.symm.trans missing

/-- In all other cases the instruction succeeds. -/
theorem executeNext_ok_iff (machine : Machine) :
    (∃ cost final, machine.perform .executeNext = .ok cost final) ↔
      (∀ address ∈ machine.readAddresses,
          ¬ Bus.Unanswered address.toNat) ∧
        ∀ opcode ∈ Opcode.holes,
          machine.bus.read machine.cpu.pc ≠ .ok opcode := by
  rw [← firstUnanswered?_eq_none_iff]
  constructor
  · rintro ⟨cost, final, succeeded⟩
    rcases machine.executeNext_trichotomy with
      ⟨answered, decoded, -⟩ | ⟨_, _, -, ran, -⟩ | ⟨-, -, _, ran, -⟩
    · refine ⟨answered, fun opcode hole found => ?_⟩
      exact decoded (readAddresses_of_hole found hole).2
    · cases succeeded.symm.trans ran
    · cases succeeded.symm.trans ran
  · rintro ⟨answered, noHole⟩
    rcases machine.executeNext_trichotomy with
      ⟨-, -, cost, final, ran, -⟩ | ⟨_, _, missing, -⟩ | ⟨-, undecoded, -⟩
    · exact ⟨cost, final, ran⟩
    · cases answered.symm.trans missing
    · have hole := (Instruction.ofOpcode?_eq_none_iff _).mp undecoded
      exact (noHole _ hole (read_pc answered)).elim

/-- What is read is read in order, up to the first address that is not answered. -/
theorem executeNext_consulted (machine : Machine) :
    (machine.perform .executeNext).execution.consulted =
      untilUnanswered machine.readAddresses := by
  rcases machine.executeNext_trichotomy with
    ⟨answered, -, _, _, ran, consulted⟩ | ⟨_, _, -, ran, consulted⟩ |
      ⟨answered, -, _, ran, consulted⟩
  · rw [ran, untilUnanswered_eq_self answered]
    exact consulted
  · rw [ran]
    exact consulted
  · rw [ran, untilUnanswered_eq_self answered]
    exact consulted

/--
Exactly the eleven holes of the opcode map are rejected, each at the address of its byte.
The only other fault is to read an address of the register page that no register answers,
and it names the first such address among those that the instruction reads.  If there is
none and the opcode is no hole, the instruction succeeds.  The addresses are read in
order up to there.  The holes are what the two tables of instructions leave over, and a
field that names a register pair is always the code of one.
-/
theorem executeNext_rejects_holes (machine : Machine) :
    let holes : List Opcode :=
      [0xD3, 0xDB, 0xDD, 0xE3, 0xE4, 0xEB, 0xEC, 0xED, 0xF4, 0xFC, 0xFD]
    (∀ opcode address,
        (∃ final,
            machine.perform .executeNext =
              .error (.unimplementedOpcode opcode address) final) ↔
          machine.bus.read machine.cpu.pc = .ok opcode ∧
            opcode ∈ holes ∧
            address = machine.cpu.pc) ∧
      (∀ address,
        (∃ final,
            machine.perform .executeNext =
              .error (.unimplementedRegister address) final) ↔
          machine.readAddresses.find?
              (fun consulted => Bus.Unanswered consulted.toNat) =
            some address) ∧
      ((∃ cost final, machine.perform .executeNext = .ok cost final) ↔
        (∀ address ∈ machine.readAddresses,
            ¬ Bus.Unanswered address.toNat) ∧
          ∀ opcode ∈ holes, machine.bus.read machine.cpu.pc ≠ .ok opcode) ∧
      (machine.perform .executeNext).execution.consulted =
        untilUnanswered machine.readAddresses ∧
      ∀ opcode,
        (opcode ∈ holes ↔
            Irregular.ofOpcode? opcode = none ∧
              Regular.ofOpcode? opcode = none) ∧
          (Pair.ofCode (Opcode.p opcode)).code = Opcode.p opcode ∧
          (StackPair.ofCode (Opcode.p opcode)).code = Opcode.p opcode ∧
          (Pointer.ofCode (Opcode.p opcode)).code = Opcode.p opcode :=
  ⟨machine.executeNext_unimplementedOpcode_iff,
    machine.executeNext_unimplementedRegister_iff,
    machine.executeNext_ok_iff,
    machine.executeNext_consulted,
    fun opcode => ⟨opcode.mem_holes_iff, opcode.code_of_p⟩⟩

end Machine

end Dmg
