import Dmg.Proofs.HandlerReturn
import Dmg.Proofs.InstructionCost
import Dmg.Proofs.StackedWords

namespace Dmg

/-!
# Last in, first out

Words that are pushed to a stack in RAM are popped in the reverse order, however many they
are.  Calls push the addresses behind them, so as many returns go back to these, the one
behind the last call first.  Whatever is done between the calls and the returns makes no
difference as long as it leaves the stack as it found it.
-/

open Stack

namespace Action

/-- Push words one after the other. -/
def pushWords : List UInt16 → Action Unit
  | [] => return
  | word :: rest => do
      pushWord word
      pushWords rest

/-- Pop so many words; the one that was on top comes first. -/
def popWords : Nat → Action (List UInt16)
  | 0 => return []
  | count + 1 => do
      let word ← popWord
      return word :: (← popWords count)

end Action

/-- The instruction is a return that is taken if the flags are such. -/
def Instruction.Returns (flags : Flags) : Instruction → Prop
  | .irregular .returnAlways => True
  | .irregular .returnEnable => True
  | .irregular (.returnIf condition) => condition.holds flags = true
  | _ => False

namespace Machine

/-- The words on the stack of a machine, the one that was pushed last in front. -/
structure Stacks
    (top : UInt16)
    (words : List UInt16)
    (machine : Machine) :
    Prop where
  pointer : machine.cpu.sp = below top (2 * words.length)
  holds : Holds machine.bus top words

/-- From one machine to the other so many bytes of the stack are left as they are. -/
structure KeepsStack
    (top : UInt16)
    (size : Nat)
    (before after : Machine) :
    Prop where
  pointer : after.cpu.sp = before.cpu.sp
  bytes : SameBelow top size before.bus after.bus

/-- The next instruction is a call that is taken, and its operand can be read. -/
structure AtCall
    (machine : Machine)
    (instruction : Instruction) :
    Prop where
  begins : machine.Begins instruction
  calls : instruction.Calls machine.cpu.flags
  found :
    ∀ address ∈
        instruction.readAddresses machine.behindOpcode.cpu machine.bus,
      ∃ byte, machine.bus.read address = .ok byte

/-- The next instruction is a return that is taken. -/
structure AtReturn
    (machine : Machine)
    (instruction : Instruction) :
    Prop where
  begins : machine.Begins instruction
  returns : instruction.Returns machine.cpu.flags

/--
The machine goes back to the addresses one after the other, by a return each, and to the
top of the stack.  Anything may be done before a return that keeps the stack.
-/
def Unwinds
    (top : UInt16) :
    List UInt16 → Machine → Prop
  | [], machine => machine.cpu.sp = top
  | address :: rest, machine =>
      ∀ instruction,
        machine.AtReturn instruction →
          ∃ cost final,
            machine.perform .executeNext = .ok cost final ∧
              final.cpu.pc = address ∧
              ∀ next : Machine,
                KeepsStack top (2 * rest.length) final.toMachine next →
                  Unwinds top rest next

/--
The machine may make so many more calls, each of which goes where it is to go, and then
goes back to the addresses behind them, behind the last one first, and to those of the
calls before.  Anything may be done before a call that keeps the stack.
-/
def Nests
    (top : UInt16) :
    Nat → List UInt16 → Machine → Prop
  | 0, returns, machine => machine.Unwinds top returns
  | count + 1, returns, machine =>
      ∀ instruction,
        machine.AtCall instruction →
          ∃ cost final,
            machine.perform .executeNext = .ok cost final ∧
              instruction.successor machine.behindOpcode =
                .target final.cpu.pc ∧
              ∀ next : Machine,
                KeepsStack top (2 * returns.length + 2) final.toMachine next →
                  Nests top count
                    ((machine.cpu.pc + .ofNat instruction.length) :: returns)
                    next

namespace Stacks

variable
  {top word : UInt16}
  {words rest : List UInt16}
  {machine before after : Machine}

/-- A stack is empty at its top. -/
theorem empty (machine : Machine) : machine.Stacks machine.cpu.sp [] where
  pointer := below_zero.symm
  holds := trivial

theorem kept
    (stacked : before.Stacks top words)
    (keeps : KeepsStack top (2 * words.length) before after) :
    after.Stacks top words where
  pointer := keeps.pointer.trans stacked.pointer
  holds := stacked.holds.of_same keeps.bytes

theorem pushed
    (stacked : before.Stacks top rest)
    (room : RoomBelow top (2 * rest.length + 2))
    (pointer : after.cpu.sp = before.cpu.sp - 2)
    (bus : after.bus = before.bus.pushed before.cpu.sp word) :
    after.Stacks top (word :: rest) where
  pointer := by
    rw [pointer, stacked.pointer, below_sub_two, List.length_cons]
    rfl
  holds := by
    rw [bus, stacked.pointer]
    exact stacked.holds.push room word

theorem popped
    (stacked : before.Stacks top (word :: rest))
    (pointer : after.cpu.sp = before.cpu.sp + 2)
    (bus : after.bus = before.bus) :
    after.Stacks top rest where
  pointer := by
    rw [pointer, stacked.pointer, List.length_cons]
    exact below_add_two
  holds := by
    rw [bus]
    exact stacked.holds.2.2

variable (stacked : machine.Stacks top (word :: rest))
include stacked

theorem low_found : machine.bus.read machine.cpu.sp = .ok (Word.low word) := by
  rw [stacked.pointer, List.length_cons]
  exact stacked.holds.1

theorem high_found :
    machine.bus.read (machine.cpu.sp + 1) = .ok (Word.high word) := by
  rw [stacked.pointer, List.length_cons]
  refine Eq.trans (congrArg _ ?_) stacked.holds.2.1
  exact below_add_one

theorem wordOnStack_eq : machine.wordOnStack = word := by
  rw [wordOnStack, Bus.byteAt_of_read stacked.low_found,
    Bus.byteAt_of_read stacked.high_found, Word.ofBytes_high_low]

end Stacks

theorem KeepsStack.refl
    {top : UInt16}
    {size : Nat}
    (machine : Machine) :
    KeepsStack top size machine machine where
  pointer := rfl
  bytes := fun _ _ _ => rfl

end Machine

namespace Execution

/-- A pushed word lies below the stack pointer. -/
theorem pushingWord_leaves
    (execution : Execution)
    (word : UInt16) :
    (execution.pushingWord word).cpu =
        { execution.cpu with sp := execution.cpu.sp - 2 } ∧
      (execution.pushingWord word).bus =
        execution.bus.pushed execution.cpu.sp word := by
  have lower : execution.cpu.sp - 1 - 1 = execution.cpu.sp - 2 := by
    grind
  unfold Bus.pushed
  rw [← lower]
  exact ⟨rfl, rfl⟩

/-- The stack pointer moves past a popped word, and nothing else changes. -/
theorem popping_leaves (execution : Execution) :
    execution.popping.popping.cpu =
        { execution.cpu with sp := execution.cpu.sp + 2 } ∧
      execution.popping.popping.bus = execution.bus := by
  have higher : execution.cpu.sp + 1 + 1 = execution.cpu.sp + 2 := by
    grind
  rw [← higher]
  exact ⟨rfl, rfl⟩

end Execution

namespace Action

variable {top : UInt16} {start : Execution}

/-- An action that cannot fail returns. -/
theorem Ensures.exists_ok
    {α : Type}
    {action : Action α}
    {returned : α → Execution → Prop}
    (ensured : Ensures action start returned fun _ _ => False) :
    ∃ result final,
      action.run start = .ok result final ∧ returned result final := by
  unfold Ensures at ensured
  cases ran : action.run start with
  | ok result final =>
      rw [ran] at ensured
      exact ⟨result, final, rfl, ensured⟩
  | error fault final =>
      rw [ran] at ensured
      exact ensured.elim

@[simp] theorem ensures_pushWord
    {returned : Unit → Execution → Prop}
    {failed : Fault → Execution → Prop}
    (word : UInt16) :
    Ensures (pushWord word) start returned failed ↔
      returned () (start.pushingWord word) :=
  Iff.rfl

/-- Words that are pushed come to lie on the stack, the last one in front. -/
theorem ensures_pushWords
    {earlier : List UInt16}
    (words : List UInt16)
    (stacked : start.Stacks top earlier)
    (room : RoomBelow top (2 * (earlier.length + words.length))) :
    Ensures (pushWords words) start
      (fun _ final =>
        final.Stacks top (words.reverse ++ earlier) ∧
          final.cpu = { start.cpu with sp := final.cpu.sp } ∧
          OnlyBelow top (2 * (earlier.length + words.length))
            start.bus final.bus)
      fun _ _ => False := by
  induction words generalizing earlier start with
  | nil => exact ⟨stacked, rfl, .refl _⟩
  | cons word rest inductionHypothesis =>
      rw [List.length_cons] at room
      obtain ⟨pushedCpu, pushedBus⟩ := start.pushingWord_leaves word
      have next :=
        stacked.pushed (room.mono (by omega))
          (congrArg Cpu.sp pushedCpu) pushedBus
      have changed :
          OnlyBelow top (2 * (earlier.length + (rest.length + 1)))
            start.bus (start.pushingWord word).bus := by
        rw [pushedBus, stacked.pointer]
        exact room.onlyBelow_pushed (by omega) _ _
      -- The room is that for all words, so it serves the rest as it is.
      have sameSize :
          (word :: earlier).length + rest.length =
            earlier.length + (rest.length + 1) := by
        rw [List.length_cons]
        omega
      have others :=
        inductionHypothesis next (by rw [sameSize]; exact room)
      unfold pushWords
      rw [ensures_bind, ensures_pushWord]
      refine others.mono ?_ fun _ _ failure => failure
      rintro _ final ⟨finalStacks, finalCpu, finalChanged⟩
      rw [sameSize] at finalChanged
      refine ⟨?_, ?_, changed.trans finalChanged⟩
      · rw [List.reverse_cons, List.append_assoc]
        exact finalStacks
      · rw [finalCpu, pushedCpu]

/-- The words on a stack are popped in their order. -/
theorem ensures_popWords
    {words : List UInt16}
    (stacked : start.Stacks top words) :
    Ensures (popWords words.length) start
      (fun popped final =>
        popped = words ∧
          final.cpu = { start.cpu with sp := top } ∧
          final.bus = start.bus)
      fun _ _ => False := by
  induction words generalizing start with
  | nil =>
      have atTop : start.cpu.sp = top := stacked.pointer.trans below_zero
      exact ⟨rfl, by rw [← atTop], rfl⟩
  | cons word rest inductionHypothesis =>
      obtain ⟨poppedCpu, poppedBus⟩ := start.popping_leaves
      have next := stacked.popped (congrArg Cpu.sp poppedCpu) poppedBus
      rw [List.length_cons, popWords, ensures_bind,
        ensures_popWord stacked.low_found stacked.high_found,
        Word.ofBytes_high_low, ensures_bind]
      refine (inductionHypothesis next).mono ?_ fun _ _ failure => failure
      rintro popped final ⟨rfl, finalCpu, finalBus⟩
      refine ⟨rfl, ?_, finalBus.trans poppedBus⟩
      rw [finalCpu, poppedCpu]

/-- As many words are popped as have been pushed, and they come back in reverse. -/
theorem ensures_pushWords_popWords
    (words : List UInt16)
    (room : RoomBelow start.cpu.sp (2 * words.length)) :
    Ensures (pushWords words >>= fun _ => popWords words.length) start
      (fun popped final =>
        popped = words.reverse ∧
          final.cpu = start.cpu ∧
          OnlyBelow start.cpu.sp (2 * words.length) start.bus final.bus)
      fun _ _ => False := by
  have noWords :
      ([] : List UInt16).length + words.length = words.length :=
    Nat.zero_add _
  have pushed :=
    ensures_pushWords words (Machine.Stacks.empty start.toMachine)
      (by rw [noWords]; exact room)
  refine pushed.bind ?_
  rintro _ middle ⟨stacked, middleCpu, changed⟩
  rw [List.append_nil] at stacked
  rw [noWords] at changed
  have popped := ensures_popWords stacked
  rw [List.length_reverse] at popped
  refine popped.mono ?_ fun _ _ failure => failure
  rintro _ final ⟨rfl, finalCpu, finalBus⟩
  refine ⟨rfl, ?_, ?_⟩
  · rw [finalCpu, middleCpu]
  · rw [finalBus]
    exact changed

end Action

namespace Instruction

variable {instruction : Instruction}

/-- A call that is taken goes to an address of its own. -/
theorem successor_of_calls
    {start : Machine}
    (calls : instruction.Calls start.cpu.flags) :
    ∃ address, instruction.successor start = .target address := by
  unfold Calls at calls
  split at calls
  · exact ⟨_, rfl⟩
  · exact ⟨_, if_pos calls⟩
  · exact ⟨_, rfl⟩
  · exact calls.elim

/-- A return that is taken reads the word on top of the stack. -/
theorem readAddresses_of_returns
    {cpu : Cpu}
    {bus : Bus}
    (returns : instruction.Returns cpu.flags) :
    instruction.readAddresses cpu bus = cpu.stackAddresses := by
  unfold Returns at returns
  split at returns
  · rfl
  · rfl
  · exact if_pos returns
  · exact returns.elim

/-- A return that is taken goes to the word on top of the stack, which it pops. -/
theorem finish_of_returns
    (start : Execution)
    (returns : instruction.Returns start.cpu.flags) :
    (instruction.finish start).cpu.pc = start.wordOnStack ∧
      (instruction.finish start).cpu.sp = start.cpu.sp + 2 ∧
      (instruction.finish start).bus = start.bus := by
  obtain ⟨poppedCpu, poppedBus⟩ := start.popping_leaves
  have unwound :
      start.unwinding.cpu.pc = start.wordOnStack ∧
        start.unwinding.cpu.sp = start.cpu.sp + 2 ∧
        start.unwinding.bus = start.bus :=
    ⟨rfl, congrArg Cpu.sp poppedCpu, poppedBus⟩
  unfold Returns at returns
  split at returns
  · exact unwound
  · exact unwound
  · rename_i condition
    have taken :
        Instruction.finish start (.irregular (.returnIf condition)) =
          start.unwinding :=
      if_pos returns
    rw [taken]
    exact unwound
  · exact returns.elim

end Instruction

namespace Machine

variable
  {top address : UInt16}
  {returns rest : List UInt16}
  {machine : Machine}
  {instruction : Instruction}

/-- A call goes where it is to go and pushes the address behind it. -/
theorem AtCall.succeeds (atCall : machine.AtCall instruction) :
    ∃ cost final,
      machine.perform .executeNext = .ok cost final ∧
        instruction.successor machine.behindOpcode =
          .target final.cpu.pc ∧
        final.cpu.sp = machine.cpu.sp - 2 ∧
        final.bus =
          machine.bus.pushed machine.cpu.sp
            (machine.cpu.pc + .ofNat instruction.length) := by
  obtain ⟨opcode, succeeded⟩ :=
    executeNext_of_begins atCall.begins atCall.found
  let start := (Execution.start machine).beginning opcode
  have calls : instruction.Calls start.cpu.flags := atCall.calls
  obtain ⟨target, goes⟩ := Instruction.successor_of_calls calls
  have goesOn :=
    instruction.finish_pc
      (show start.cpu.pc = machine.cpu.pc + 1 from rfl)
  have pushes := Instruction.finish_of_calls start calls rfl
  rw [goes] at goesOn
  refine ⟨_, _, succeeded, ?_, pushes⟩
  rw [goesOn]
  exact goes

/-- A return goes to the word on top of the stack. -/
theorem AtReturn.succeeds
    (atReturn : machine.AtReturn instruction)
    (stacked : machine.Stacks top (address :: rest)) :
    ∃ cost final,
      machine.perform .executeNext = .ok cost final ∧
        final.cpu.pc = address ∧ final.Stacks top rest := by
  have returns : instruction.Returns machine.behindOpcode.cpu.flags :=
    atReturn.returns
  have found :
      ∀ address ∈
          instruction.readAddresses machine.behindOpcode.cpu machine.bus,
        ∃ byte, machine.bus.read address = .ok byte := by
    rw [Instruction.readAddresses_of_returns returns]
    exact
      List.forall_mem_cons.mpr
        ⟨⟨_, stacked.low_found⟩,
          List.forall_mem_singleton.mpr ⟨_, stacked.high_found⟩⟩
  obtain ⟨opcode, succeeded⟩ := executeNext_of_begins atReturn.begins found
  obtain ⟨goesTo, pointer, bus⟩ :=
    Instruction.finish_of_returns
      ((Execution.start machine).beginning opcode) returns
  exact
    ⟨_, _, succeeded, goesTo.trans stacked.wordOnStack_eq,
      stacked.popped pointer bus⟩

/-- Returns go back to the addresses on the stack. -/
theorem Stacks.unwinds (stacked : machine.Stacks top returns) :
    machine.Unwinds top returns := by
  induction returns generalizing machine with
  | nil => exact stacked.pointer.trans below_zero
  | cons address rest inductionHypothesis =>
      intro instruction atReturn
      obtain ⟨cost, final, succeeded, goesTo, left⟩ :=
        atReturn.succeeds stacked
      refine ⟨cost, final, succeeded, goesTo, ?_⟩
      intro next keeps
      exact inductionHypothesis (left.kept keeps)

/-- Calls add the addresses behind them to those on the stack. -/
theorem Stacks.nests
    (stacked : machine.Stacks top returns)
    (count : Nat)
    (room : RoomBelow top (2 * (returns.length + count))) :
    machine.Nests top count returns := by
  induction count generalizing returns machine with
  | zero => exact stacked.unwinds
  | succ count inductionHypothesis =>
      intro instruction atCall
      obtain ⟨cost, final, succeeded, goes, pointer, bus⟩ :=
        atCall.succeeds
      have called :
          final.Stacks top
            ((machine.cpu.pc + .ofNat instruction.length) :: returns) :=
        stacked.pushed (room.mono (by omega)) pointer bus
      refine ⟨cost, final, succeeded, goes, ?_⟩
      intro next keeps
      have sameSize :
          ∀ behind : UInt16,
            (behind :: returns).length + count =
              returns.length + (count + 1) := by
        intro behind
        rw [List.length_cons]
        omega
      apply inductionHypothesis (called.kept keeps)
      rw [sameSize]
      exact room

end Machine

namespace Word

theorem high_and (left right : UInt16) :
    high (left &&& right) = high left &&& high right := by
  simp [high, UInt16.shiftRight_and]

theorem low_and (left right : UInt16) :
    low (left &&& right) = low left &&& low right := by
  simp [low]

end Word

/-- The low half of the byte of the flags has no storage. -/
theorem Flags.toByte_ofByte (byte : UInt8) :
    (ofByte byte).toByte = byte &&& 0xF0 := by
  have everyByte :
      ∀ number : Fin 256,
        (ofByte (.ofFin number)).toByte = UInt8.ofFin number &&& 0xF0 := by
    decide +kernel
  exact everyByte byte.toFin

namespace Cpu

/-- The accumulator and the flags drop the lowest half byte. -/
theorem af_setAf
    (value : UInt16)
    (cpu : Cpu) :
    (cpu.setAf value).af = value &&& 0xFFF0 := by
  have highMask : Word.high 0xFFF0 = -1 := rfl
  have lowMask : Word.low 0xFFF0 = 0xF0 := rfl
  rw [← Word.ofBytes_high_low (value &&& 0xFFF0), Word.high_and,
    Word.low_and, highMask, lowMask, UInt8.and_neg_one,
    ← Flags.toByte_ofByte]
  rfl

/-- A pair of registers reads back what is stored in it, but for half a byte. -/
theorem getStackPair_setStackPair
    (pair : StackPair)
    (value : UInt16)
    (cpu : Cpu) :
    (cpu.setStackPair pair value).getStackPair pair =
      if pair = .af then value &&& 0xFFF0 else value := by
  cases pair with
  | bc => exact cpu.getPair_setPair_same .bc value
  | de => exact cpu.getPair_setPair_same .de value
  | hl => exact cpu.getPair_setPair_same .hl value
  | af => exact cpu.af_setAf value

end Cpu

namespace Machine

variable
  {top word : UInt16}
  {rest : List UInt16}
  {machine : Machine}
  {pair : StackPair}

/-- A pair of registers is pushed as a word. -/
theorem push_succeeds
    (begins : machine.Begins (.regular (.push pair))) :
    ∃ cost final,
      machine.perform .executeNext = .ok cost final ∧
        final.cpu =
          { machine.cpu with
            pc := machine.cpu.pc + 1
            sp := machine.cpu.sp - 2 } ∧
        final.bus =
          machine.bus.pushed machine.cpu.sp (machine.cpu.getStackPair pair) := by
  obtain ⟨opcode, succeeded⟩ := executeNext_of_begins begins nofun
  let start := (Execution.start machine).beginning opcode
  have samePair :
      start.cpu.getStackPair pair = machine.cpu.getStackPair pair := by
    cases pair <;> rfl
  have leaves := start.pushingWord_leaves (start.cpu.getStackPair pair)
  rw [samePair] at leaves
  refine ⟨_, _, succeeded, ?_⟩
  change
    (start.pushingWord (start.cpu.getStackPair pair)).cpu = _ ∧
      (start.pushingWord (start.cpu.getStackPair pair)).bus = _
  rw [samePair]
  exact leaves

/-- The word on top of the stack is popped into a pair of registers. -/
theorem pop_succeeds
    (begins : machine.Begins (.regular (.pop pair)))
    (stacked : machine.Stacks top (word :: rest)) :
    ∃ cost final,
      machine.perform .executeNext = .ok cost final ∧
        final.cpu =
          Cpu.setStackPair pair word
            { machine.cpu with
              pc := machine.cpu.pc + 1
              sp := machine.cpu.sp + 2 } ∧
        final.bus = machine.bus := by
  have found :
      ∀ address ∈ machine.behindOpcode.cpu.stackAddresses,
        ∃ byte, machine.bus.read address = .ok byte :=
    List.forall_mem_cons.mpr
      ⟨⟨_, stacked.low_found⟩,
        List.forall_mem_singleton.mpr ⟨_, stacked.high_found⟩⟩
  obtain ⟨opcode, succeeded⟩ := executeNext_of_begins begins found
  let start := (Execution.start machine).beginning opcode
  obtain ⟨poppedCpu, poppedBus⟩ := start.popping_leaves
  have onStack : start.wordOnStack = word := stacked.wordOnStack_eq
  refine ⟨_, _, succeeded, ?_, poppedBus⟩
  change
    start.popping.popping.cpu.setStackPair pair start.wordOnStack = _
  rw [poppedCpu, onStack]
  rfl

/--
The stack is last in, first out, wherever there is room for it in RAM.  So many words that
are pushed are popped in the reverse order, after which the registers are as before and so
is all memory but the bytes that have been pushed.  So many calls that are nested are
returned from to the address behind each in turn, whatever is done in between as long as
it leaves the stack as it is.  A pair of registers that is pushed is popped into any pair
as it was, except that the lowest half byte is dropped on the way into the flags.
-/
theorem stack_is_last_in_first_out :
    (∀ (machine : Machine) (words : List UInt16),
      RoomBelow machine.cpu.sp (2 * words.length) →
        ∃ final,
          machine.perform
              (do
                Action.pushWords words
                Action.popWords words.length) =
            .ok words.reverse final ∧
            final.cpu = machine.cpu ∧
            OnlyBelow machine.cpu.sp (2 * words.length)
              machine.bus final.bus) ∧
    (∀ (machine : Machine) (count : Nat),
      RoomBelow machine.cpu.sp (2 * count) →
        machine.Nests machine.cpu.sp count []) ∧
    (∀ (machine : Machine) (source : StackPair),
      RoomBelow machine.cpu.sp 2 →
        machine.Begins (.regular (.push source)) →
          ∃ cost pushed,
            machine.perform .executeNext = .ok cost pushed ∧
              OnlyBelow machine.cpu.sp 2 machine.bus pushed.bus ∧
              ∀ (next : Machine) (target : StackPair),
                KeepsStack machine.cpu.sp 2 pushed.toMachine next →
                  next.Begins (.regular (.pop target)) →
                    ∃ cost popped,
                      next.perform .executeNext = .ok cost popped ∧
                        popped.bus = next.bus ∧
                        popped.cpu =
                          Cpu.setStackPair target
                            (machine.cpu.getStackPair source)
                            { next.cpu with
                              pc := next.cpu.pc + 1
                              sp := machine.cpu.sp } ∧
                        popped.cpu.getStackPair target =
                          if target = .af then
                            machine.cpu.getStackPair source &&& 0xFFF0
                          else
                            machine.cpu.getStackPair source) := by
  refine ⟨?_, ?_, ?_⟩
  · intro machine words room
    obtain ⟨_, final, succeeded, rfl, unchanged⟩ :=
      (Action.ensures_pushWords_popWords words
        (show RoomBelow (Execution.start machine).cpu.sp _ from
          room)).exists_ok
    exact ⟨final, succeeded, unchanged⟩
  · intro machine count room
    apply (Stacks.empty machine).nests count
    rw [List.length_nil, Nat.zero_add]
    exact room
  · intro machine source room begins
    obtain ⟨cost, pushed, succeeded, pushedCpu, pushedBus⟩ :=
      push_succeeds begins
    have stacked :
        pushed.Stacks machine.cpu.sp [machine.cpu.getStackPair source] :=
      (Stacks.empty machine).pushed room (congrArg Cpu.sp pushedCpu) pushedBus
    refine ⟨cost, pushed, succeeded, ?_, ?_⟩
    · have changed :=
        room.onlyBelow_pushed (Nat.le_refl _) machine.bus
          (machine.cpu.getStackPair source)
      rw [below_zero] at changed
      rw [pushedBus]
      exact changed
    · intro next target keeps pops
      obtain ⟨cost, popped, succeeded, poppedCpu, poppedBus⟩ :=
        pop_succeeds pops (stacked.kept keeps)
      have restored : next.cpu.sp + 2 = machine.cpu.sp := by
        rw [keeps.pointer, pushedCpu]
        grind
      rw [restored] at poppedCpu
      refine ⟨cost, popped, succeeded, poppedBus, poppedCpu, ?_⟩
      rw [poppedCpu]
      exact Cpu.getStackPair_setStackPair _ _ _

/-- The machine after its next instruction. -/
def next (machine : Machine) : Machine :=
  (Outcome.execution (machine.perform .executeNext)).toMachine

theorem next_of_succeeded
    {cost : Nat}
    {final : Execution}
    (succeeded : machine.perform .executeNext = .ok cost final) :
    final.toMachine = machine.next := by
  rw [next, succeeded]
  rfl

/--
A machine that calls a routine, which calls another, and then moves BC to AF by way of the
stack.
-/
def nesting : Machine where
  cpu := { Cpu.powerOn with pc := 0xFF80 }
  bus :=
    { Bus.powerOn Cartridge.blank with
      highRam :=
        Vector.ofFn fun place =>
          match place.val with
          | 0x00 => 0xCD
          | 0x01 => 0x88
          | 0x02 => 0xFF
          | 0x03 => 0xC5
          | 0x04 => 0xF1
          | 0x08 => 0xCD
          | 0x09 => 0x90
          | 0x0A => 0xFF
          | 0x0B => 0xC9
          | 0x10 => 0xC9
          | _ => 0 }

/--
The second return goes back behind the first call.  There BC, which is 0x0013, is pushed
and popped into AF.
-/
theorem stack_is_last_in_first_out_nesting :
    (∃ final,
      nesting.perform
          (do
            Action.pushWords [0x1234, 0xABCD]
            Action.popWords 2) =
        .ok [0xABCD, 0x1234] final ∧
        final.cpu = nesting.cpu) ∧
      nesting.next.next.next.cpu.pc = 0xFF8B ∧
      nesting.next.next.next.next.cpu.pc = 0xFF83 ∧
      nesting.next.next.next.next.cpu.sp = 0xFFFE ∧
      nesting.next.next.next.next.next.next.cpu.af = 0x0010 := by
  obtain ⟨lastIn, nested, moved⟩ := stack_is_last_in_first_out
  have outer : nesting.AtCall (.irregular .call) :=
    ⟨⟨0xCD, by decide +kernel, rfl⟩, trivial,
      List.forall_mem_cons.mpr
        ⟨⟨0x88, by decide +kernel⟩,
          List.forall_mem_singleton.mpr ⟨0xFF, by decide +kernel⟩⟩⟩
  have inner : nesting.next.AtCall (.irregular .call) :=
    ⟨⟨0xCD, by decide +kernel, rfl⟩, trivial,
      List.forall_mem_cons.mpr
        ⟨⟨0x90, by decide +kernel⟩,
          List.forall_mem_singleton.mpr ⟨0xFF, by decide +kernel⟩⟩⟩
  have innerReturn : nesting.next.next.AtReturn (.irregular .returnAlways) :=
    ⟨⟨0xC9, by decide +kernel, rfl⟩, trivial⟩
  have outerReturn :
      nesting.next.next.next.AtReturn (.irregular .returnAlways) :=
    ⟨⟨0xC9, by decide +kernel, rfl⟩, trivial⟩
  have pushes :
      nesting.next.next.next.next.Begins (.regular (.push .bc)) :=
    ⟨0xC5, by decide +kernel, rfl⟩
  have pops :
      nesting.next.next.next.next.next.Begins (.regular (.pop .af)) :=
    ⟨0xF1, by decide +kernel, rfl⟩
  obtain ⟨final, popped, sameCpu, -⟩ :=
    lastIn nesting [0x1234, 0xABCD] (by decide +kernel)
  obtain ⟨_, _, called, -, continues⟩ :=
    nested nesting 2 (by decide +kernel) _ outer
  rw [next_of_succeeded called] at continues
  obtain ⟨_, _, called, -, continues⟩ := continues _ (.refl _) _ inner
  rw [next_of_succeeded called] at continues
  obtain ⟨_, _, returned, innerBack, continues⟩ :=
    continues _ (.refl _) _ innerReturn
  rw [next_of_succeeded returned] at innerBack continues
  obtain ⟨_, _, returned, outerBack, continues⟩ :=
    continues _ (.refl _) _ outerReturn
  rw [next_of_succeeded returned] at outerBack continues
  have atTop : nesting.next.next.next.next.cpu.sp = nesting.cpu.sp :=
    continues _ (.refl _)
  obtain ⟨_, _, succeeded, -, continues⟩ :=
    moved _ .bc (by decide +kernel) pushes
  rw [next_of_succeeded succeeded] at continues
  obtain ⟨_, _, succeeded, -, -, pair⟩ := continues _ .af (.refl _) pops
  rw [next_of_succeeded succeeded] at pair
  exact
    ⟨⟨final, popped, sameCpu⟩, innerBack.trans (by decide +kernel),
      outerBack.trans (by decide +kernel), atTop,
      pair.trans (by decide +kernel)⟩

end Machine

end Dmg
