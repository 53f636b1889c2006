import Dmg.Proofs.MemoryMap
import Dmg.Proofs.Shortfall

namespace Dmg

/-!
# The addresses that an action reads

An action that reads asks the bus for one address after the other, and the first that
no register answers ends it.  Nothing else can.  So an action is described by the
addresses that it would read if all of them answered, together with what it returns and
leaves in that case.
-/

namespace Bus

/-- The byte that an address reads as; all bits set where the bus does not answer. -/
def byteAt
    (bus : Bus)
    (address : UInt16) :
    UInt8 :=
  match bus.read address with
  | .ok value => value
  | .error _ => 0xFF

/-- A read on the register page fails exactly where no register can be read. -/
theorem read_page_eq
    {address : UInt16}
    (lower : 0xFF00 ≤ address.toNat)
    (upper : address.toNat < 0xFF4C)
    (page : Peripherals) :
    Unanswered address.toNat ∧
        page.read address = .error (.unimplementedRegister address) ∨
      ¬ Unanswered address.toNat ∧
        ∃ value, page.read address = .ok value := by
  have unanswered := unanswered_iff lower upper
  unfold Peripherals.read
  cases found : Peripherals.Register.ofAddress? address with
  | none =>
      rw [found] at unanswered
      exact .inl ⟨unanswered.mpr (by simp), rfl⟩
  | some register =>
      rw [found] at unanswered
      cases register with
      | sound => exact .inl ⟨unanswered.mpr (by simp), rfl⟩
      | _ => exact .inr ⟨by simp [unanswered], _, rfl⟩

/-- A read fails at the unanswered addresses of the register page and nowhere else. -/
theorem read_eq
    (bus : Bus)
    (address : UInt16) :
    bus.read address =
      if Unanswered address.toNat then
        .error (.unimplementedRegister address)
      else
        .ok (bus.byteAt address) := by
  have here := Location.ofAddress_at address
  have answered {value : UInt8} (found : bus.read address = .ok value) :
      bus.read address = .ok (bus.byteAt address) := by
    rw [byteAt, found]
  cases location : Location.ofAddress address with
  | register registerAddress =>
      rw [location] at here
      obtain ⟨same, lower, upper⟩ := here
      cases UInt16.toNat_inj.mp same
      have onPage : bus.read address = bus.peripherals.read address := by
        rw [read, location]
        rfl
      rcases read_page_eq lower upper bus.peripherals with
        ⟨unanswered, failed⟩ | ⟨isAnswered, value, found⟩
      · rw [if_pos unanswered, onPage, failed]
      · rw [if_neg isAnswered]
        exact answered (onPage.trans found)
  | _ =>
      simp only [location, Location.At] at here
      have isAnswered : ¬ Unanswered address.toNat := by
        unfold Unanswered
        omega
      rw [if_neg isAnswered]
      apply answered
      rw [read, location]
      rfl

section Found

variable
  {bus : Bus}
  {address : UInt16}
  {value : UInt8}
  (found : bus.read address = .ok value)
include found

theorem byteAt_of_read : bus.byteAt address = value := by
  rw [byteAt, found]

theorem answered_of_read : ¬ Unanswered address.toNat := by
  intro unanswered
  rw [read_eq, if_pos unanswered] at found
  cases found

end Found

end Bus

/-- The address that an event asks for. -/
def Event.readAddress? : Event → Option UInt16
  | .fetch address => some address
  | .read address => some address
  | _ => none

namespace Execution

/-- The addresses that have been read so far, the earliest first. -/
def consulted (execution : Execution) : List UInt16 :=
  (execution.journal.filterMap Event.readAddress?).reverse

@[simp] theorem consulted_fetch
    (execution : Execution)
    (address : UInt16) :
    (execution.noting (.fetch address)).consulted =
      execution.consulted ++ [address] :=
  List.reverse_cons

@[simp] theorem consulted_read
    (execution : Execution)
    (address : UInt16) :
    (execution.noting (.read address)).consulted =
      execution.consulted ++ [address] :=
  List.reverse_cons

end Execution

/-- The first of some addresses that is not answered. -/
def firstUnanswered? (addresses : List UInt16) : Option UInt16 :=
  addresses.find? fun address => Bus.Unanswered address.toNat

theorem firstUnanswered?_eq_none_iff {addresses : List UInt16} :
    firstUnanswered? addresses = none ↔
      ∀ address ∈ addresses, ¬ Bus.Unanswered address.toNat := by
  simp [firstUnanswered?]

/-- The addresses up to the first that is not answered, including that one. -/
def untilUnanswered : List UInt16 → List UInt16
  | [] => []
  | address :: rest =>
      if Bus.Unanswered address.toNat then
        [address]
      else
        address :: untilUnanswered rest

/-- Where all addresses are answered, none is left out. -/
theorem untilUnanswered_eq_self
    {addresses : List UInt16}
    (answered : firstUnanswered? addresses = none) :
    untilUnanswered addresses = addresses := by
  induction addresses with
  | nil => rfl
  | cons address rest inductionHypothesis =>
      simp only [firstUnanswered?, List.find?_eq_none, List.forall_mem_cons,
        decide_eq_true_eq] at answered inductionHypothesis
      rw [untilUnanswered, if_neg answered.1,
        inductionHypothesis answered.2]

theorem firstUnanswered?_append
    {initial : List UInt16}
    (answered : firstUnanswered? initial = none)
    (rest : List UInt16) :
    firstUnanswered? (initial ++ rest) = firstUnanswered? rest := by
  unfold firstUnanswered? at answered ⊢
  rw [List.find?_append, answered, Option.none_or]

theorem untilUnanswered_append
    {initial : List UInt16}
    (answered : firstUnanswered? initial = none)
    (rest : List UInt16) :
    untilUnanswered (initial ++ rest) = initial ++ untilUnanswered rest := by
  induction initial with
  | nil => rfl
  | cons address later inductionHypothesis =>
      simp only [firstUnanswered?, List.find?_eq_none, List.forall_mem_cons,
        decide_eq_true_eq] at answered inductionHypothesis
      simp [untilUnanswered, answered.1, inductionHypothesis answered.2]

/-- An address that is not answered hides all that would come after it. -/
theorem firstUnanswered?_append_of_some
    {initial : List UInt16}
    {address : UInt16}
    (missing : firstUnanswered? initial = some address)
    (rest : List UInt16) :
    firstUnanswered? (initial ++ rest) = some address := by
  unfold firstUnanswered? at missing ⊢
  rw [List.find?_append, missing, Option.some_or]

theorem untilUnanswered_append_of_some
    {initial : List UInt16}
    {address : UInt16}
    (missing : firstUnanswered? initial = some address)
    (rest : List UInt16) :
    untilUnanswered (initial ++ rest) = untilUnanswered initial := by
  induction initial with
  | nil => simp [firstUnanswered?] at missing
  | cons first later inductionHypothesis =>
      by_cases unanswered : Bus.Unanswered first.toNat
      · simp [untilUnanswered, unanswered]
      · simp only [firstUnanswered?, List.find?_cons, unanswered,
          decide_false] at missing inductionHypothesis
        simp [untilUnanswered, unanswered, inductionHypothesis missing]

namespace Action

variable {α β : Type}

/--
The action reads the addresses in turn.  If all of them are answered it returns as
described; otherwise it ends at the first that is not, in the fault that names it.
-/
def Consults
    (action : Action α)
    (start : Execution)
    (addresses : List UInt16)
    (returned : α → Execution → Prop) :
    Prop :=
  Ensures action start
    (fun result final =>
      firstUnanswered? addresses = none ∧
        final.consulted = start.consulted ++ addresses ∧
        returned result final)
    (fun fault final =>
      ∃ address,
        firstUnanswered? addresses = some address ∧
          final.consulted =
            start.consulted ++ untilUnanswered addresses ∧
          fault = .unimplementedRegister address)

namespace Consults

variable
  {start : Execution}
  {initial rest : List UInt16}
  {returned : α → Execution → Prop}

/-- An action that succeeds without reading. -/
theorem unread
    {action : Action α}
    (ensured :
      Ensures action start
        (fun result final =>
          final.consulted = start.consulted ∧ returned result final)
        (fun _ _ => False)) :
    Consults action start [] returned := by
  refine ensured.mono ?_ ?_
  · rintro result final ⟨same, holds⟩
    exact ⟨rfl, by rw [same, List.append_nil], holds⟩
  · rintro fault final ⟨⟩

/-- Actions one after the other read the addresses of both. -/
theorem bind
    {first : Action β}
    {next : β → Action α}
    {between : β → Execution → Prop}
    (firstConsults : Consults first start initial between)
    (nextConsults :
      ∀ result middle,
        between result middle →
          Consults (next result) middle rest returned) :
    Consults (first >>= next) start (initial ++ rest) returned := by
  unfold Consults
  rw [ensures_bind]
  refine firstConsults.mono ?_ ?_
  · rintro result middle ⟨answered, consulted, holds⟩
    rw [firstUnanswered?_append answered, untilUnanswered_append answered,
      ← List.append_assoc, ← List.append_assoc, ← consulted]
    exact nextConsults result middle holds
  · rintro fault final ⟨address, missing, consulted, rfl⟩
    refine ⟨address, firstUnanswered?_append_of_some missing rest, ?_, rfl⟩
    rw [untilUnanswered_append_of_some missing]
    exact consulted

/-- Any action may be followed by one that succeeds without reading. -/
theorem thenUnread
    {first : Action β}
    {next : β → Action α}
    {between : β → Execution → Prop}
    (firstConsults : Consults first start initial between)
    (nextEnsures :
      ∀ result middle,
        between result middle →
          Ensures (next result) middle
            (fun result final =>
              final.consulted = middle.consulted ∧ returned result final)
            (fun _ _ => False)) :
    Consults (first >>= next) start initial returned := by
  have both :=
    firstConsults.bind fun result middle holds =>
      unread (nextEnsures result middle holds)
  rwa [List.append_nil] at both

theorem mono
    {action : Action α}
    {returned' : α → Execution → Prop}
    (consults : Consults action start initial returned)
    (weaker : ∀ result final, returned result final → returned' result final) :
    Consults action start initial returned' := by
  refine Ensures.mono consults ?_ ?_
  · rintro result final ⟨answered, consulted, holds⟩
    exact ⟨answered, consulted, weaker result final holds⟩
  · intro fault final failed
    exact failed

end Consults

section Reads

variable {start : Execution}

/-- To ask for one address is to read it. -/
theorem consults_access
    {address : UInt16}
    {noted : Execution}
    (consulted : noted.consulted = start.consulted ++ [address])
    (sameBus : noted.bus = start.bus) :
    Ensures (access address) noted
      (fun value final =>
        firstUnanswered? [address] = none ∧
          final.consulted = start.consulted ++ [address] ∧
          value = start.bus.byteAt address ∧ final = noted)
      (fun fault final =>
        ∃ missing,
          firstUnanswered? [address] = some missing ∧
            final.consulted =
              start.consulted ++ untilUnanswered [address] ∧
            fault = .unimplementedRegister missing) := by
  rw [ensures_access, sameBus, Bus.read_eq]
  by_cases unanswered : Bus.Unanswered address.toNat
  · simp [unanswered, firstUnanswered?, untilUnanswered, consulted]
  · simp [unanswered, firstUnanswered?, consulted]

theorem consults_readByte (address : UInt16) :
    Consults (readByte address) start [address]
      (fun value final =>
        value = start.bus.byteAt address ∧
          final = start.noting (.read address)) :=
  consults_access (Execution.consulted_read start address) rfl

theorem consults_fetchByte :
    Consults fetchByte start [start.cpu.pc]
      (fun value final =>
        value = start.bus.byteAt start.cpu.pc ∧ final = start.fetching) := by
  have asked :=
    consults_access (Execution.consulted_fetch start start.cpu.pc) rfl
  unfold Consults fetchByte
  rw [ensures_bind, ensures_cpu, ensures_bind, ensures_record]
  refine asked.bind ?_
  rintro value final ⟨answered, consulted, same, rfl⟩
  exact ⟨answered, consulted, same, rfl⟩

/-- A word of the instruction is read from two addresses. -/
theorem consults_fetchWord :
    Consults fetchWord start [start.cpu.pc, start.cpu.pc + 1]
      (fun value final =>
        value =
            Word.ofBytes
              (start.bus.byteAt (start.cpu.pc + 1))
              (start.bus.byteAt start.cpu.pc) ∧
          final = start.fetching.fetching) := by
  refine consults_fetchByte.bind ?_
  rintro _ _ ⟨rfl, rfl⟩
  refine consults_fetchByte.thenUnread ?_
  rintro _ _ ⟨rfl, rfl⟩
  exact ⟨rfl, rfl, rfl⟩

theorem consults_popByte :
    Consults popByte start [start.cpu.sp]
      (fun value final =>
        value = start.bus.byteAt start.cpu.sp ∧ final = start.popping) := by
  unfold popByte
  refine (consults_readByte start.cpu.sp).thenUnread ?_
  rintro _ _ ⟨rfl, rfl⟩
  exact ⟨rfl, rfl, rfl⟩

/-- A word on the stack is read from two addresses. -/
theorem consults_popWord :
    Consults popWord start [start.cpu.sp, start.cpu.sp + 1]
      (fun value final =>
        value =
            Word.ofBytes
              (start.bus.byteAt (start.cpu.sp + 1))
              (start.bus.byteAt start.cpu.sp) ∧
          final = start.popping.popping) := by
  refine consults_popByte.bind ?_
  rintro _ _ ⟨rfl, rfl⟩
  refine consults_popByte.thenUnread ?_
  rintro _ _ ⟨rfl, rfl⟩
  exact ⟨rfl, rfl, rfl⟩

end Reads

end Action

end Dmg
