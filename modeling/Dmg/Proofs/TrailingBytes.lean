import Dmg.Proofs.ImageDefects
import Dmg.Proofs.RomExchange
import Dmg.Proofs.Session

namespace Dmg

/-!
# Bytes behind the last bank

An image may be longer than its banks, by less than another bank.  The bytes behind are
never seen: not when it is loaded, and not by anything that is done to the cartridge, or
to a machine with it, later on.
-/

open Cartridge

/-- What can be done to a machine from outside, also past the bus. -/
inductive HostCall where
  | call (call : Call)
  | reset
  /-- An operation on the cartridge itself. -/
  | cartridge (operation : Cartridge.Operation)
  /-- Everything beside the cartridge is set to what it is in another machine. -/
  | set (other : Machine)

/-- The result of something that was done. -/
inductive HostResult where
  | done
  | took (cycles : UInt64)
  | dispatched (accepted : Bool)
  deriving Repr, DecidableEq

/-- What is answered: the result or the fault, and the events, the latest first. -/
structure Reply where
  result : Except Fault HostResult
  events : List Event

namespace Outcome

variable {α : Type}

def reply
    (tell : α → HostResult) :
    Outcome α → Reply
  | .ok result execution => ⟨.ok (tell result), execution.journal⟩
  | .error fault execution => ⟨.error fault, execution.journal⟩

@[simp] theorem reply_withRom
    (rom : Array UInt8)
    (tell : α → HostResult)
    (outcome : Outcome α) :
    (Outcome.withRom rom outcome).reply tell = outcome.reply tell := by
  cases outcome <;> rfl

@[simp] theorem execution_withRom
    (rom : Array UInt8)
    (outcome : Outcome α) :
    (Outcome.withRom rom outcome).execution =
      outcome.execution.withRom rom := by
  cases outcome <;> rfl

/-- The events of an outcome are those before, and its own. -/
def addEvents
    (outcome : Outcome α)
    (events : List Event) :
    List Event :=
  outcome.execution.journal ++ events

theorem addEvents_withRom
    (rom : Array UInt8)
    (outcome : Outcome α)
    (events : List Event) :
    (Outcome.withRom rom outcome).addEvents events =
      outcome.addEvents events := by
  rw [addEvents, execution_withRom]
  rfl

end Outcome

namespace Machine

/-- The reply to an action, and the machine that it leaves. -/
def respondTo
    {α : Type}
    (tell : α → HostResult)
    (outcome : Outcome α) :
    Reply × Machine :=
  (outcome.reply tell, outcome.execution.toMachine)

/-- The reply to a run, and the machine that it leaves. -/
def respondToRun
    (start : Machine)
    (run : Run (List Event)) :
    Reply × Machine :=
  let result :=
    match run.fault with
    | none => .ok (.took (run.elapsedSince start))
    | some fault => .error fault
  (⟨result, run.observed⟩, run.machine)

/-- What is done is answered, and leaves a machine. -/
def respond (machine : Machine) : HostCall → Reply × Machine
  | .call .step => respondTo .took machine.step
  | .call (.runFor cycles) =>
      machine.respondToRun (machine.runFor Outcome.addEvents cycles [])
  | .call (.poke address value) =>
      (⟨.ok .done, []⟩, machine.poke address value)
  | .call (.press pressed) => (⟨.ok .done, []⟩, machine.press pressed)
  | .call (.request source) => (⟨.ok .done, []⟩, machine.request source)
  | .call (.interrupt source) =>
      respondTo .dispatched (machine.perform (.interrupt source))
  | .call .transfer =>
      respondTo (fun _ => .done) (machine.perform .transfer)
  | .reset => (⟨.ok .done, []⟩, machine.reset)
  | .cartridge operation =>
      (⟨.ok .done, []⟩,
        { machine with
          bus :=
            { machine.bus with
              cartridge := machine.bus.cartridge.apply operation } })
  | .set other =>
      (⟨.ok .done, []⟩,
        { other with
          bus := { other.bus with cartridge := machine.bus.cartridge } })

/-- All replies to a list of calls, and the machine that is left in the end. -/
def converse (machine : Machine) : List HostCall → List Reply × Machine
  | [] => ([], machine)
  | call :: rest =>
      let (reply, next) := machine.respond call
      let (replies, final) := next.converse rest
      (reply :: replies, final)

variable
  {rom : Array UInt8}
  {machine : Machine}
  (covers : Covers rom machine.bus.cartridge)
include covers

theorem respondTo_withRom
    {α : Type}
    {action : Action α}
    (blind : action.Blind)
    (tell : α → HostResult) :
    respondTo tell ((machine.withRom rom).perform action) =
        ((respondTo tell (machine.perform action)).1,
          (respondTo tell (machine.perform action)).2.withRom rom) ∧
      Covers rom
        (respondTo tell (machine.perform action)).2.bus.cartridge := by
  obtain ⟨exchanged, covered⟩ := perform_withRom covers blind
  refine ⟨?_, covered⟩
  rw [respondTo, exchanged, Outcome.reply_withRom, Outcome.execution_withRom]
  rfl

theorem respond_runFor_withRom (cycles : UInt64) :
    (machine.withRom rom).respond (.call (.runFor cycles)) =
        ((machine.respond (.call (.runFor cycles))).1,
          (machine.respond (.call (.runFor cycles))).2.withRom rom) ∧
      Covers rom
        (machine.respond (.call (.runFor cycles))).2.bus.cartridge := by
  obtain ⟨exchanged, covered⟩ :=
    runFor_withRom covers (Outcome.addEvents_withRom rom) cycles []
  exact ⟨congrArg (respondToRun (machine.withRom rom)) exchanged, covered⟩

/-- Whatever is done, the reply does not tell one ROM from the other. -/
theorem respond_withRom (call : HostCall) :
    (machine.withRom rom).respond call =
        ((machine.respond call).1, (machine.respond call).2.withRom rom) ∧
      Covers rom (machine.respond call).2.bus.cartridge := by
  cases call with
  | call call =>
      cases call with
      | step => exact respondTo_withRom covers Action.blind_step .took
      | runFor cycles => exact respond_runFor_withRom covers cycles
      | poke address value =>
          have written := machine.bus.write_withRom rom address value
          refine ⟨congrArg (fun bus => (_, { machine with bus := bus })) written, ?_⟩
          exact covers.of_leads (Bus.write_leads machine.bus address value)
      | press | request => exact ⟨rfl, covers⟩
      | interrupt source =>
          exact respondTo_withRom covers (Action.blind_interrupt source) _
      | transfer => exact respondTo_withRom covers Action.blind_transfer _
  | reset => exact ⟨rfl, covers.of_leads (.one _ .resetBanking)⟩
  | cartridge operation =>
      have operated := machine.bus.cartridge.apply_withRom rom operation
      refine ⟨?_, covers.of_leads (.one _ operation)⟩
      exact congrArg
        (fun cartridge =>
          (_, { machine with bus := { machine.bus with cartridge := cartridge } }))
        operated
  | set other => exact ⟨rfl, covers⟩

theorem converse_withRom (calls : List HostCall) :
    (machine.withRom rom).converse calls =
        ((machine.converse calls).1,
          (machine.converse calls).2.withRom rom) ∧
      Covers rom (machine.converse calls).2.bus.cartridge := by
  induction calls generalizing machine with
  | nil => exact ⟨rfl, covers⟩
  | cons call rest inductionHypothesis =>
      obtain ⟨exchanged, covered⟩ := respond_withRom covers call
      obtain ⟨later, stillCovered⟩ := inductionHypothesis covered
      refine ⟨?_, stillCovered⟩
      rw [converse, exchanged]
      dsimp only
      rw [later]
      rfl

end Machine

namespace Header

section Same

variable
  {first second : Image}
  (same : ∀ index < size, second[index]? = first[index]?)
include same

theorem byte_eq_of_same
    {address : Nat}
    (inside : address < size) :
    byte second address = byte first address := by
  unfold byte
  rw [Array.getD_eq_getD_getElem?, Array.getD_eq_getD_getElem?,
    same address inside]

theorem bytes_eq_of_same
    {address count : Nat}
    (inside : address + count ≤ size) :
    bytes second address count = bytes first address count := by
  apply congrArg Array.toList
  apply Array.ext_getElem?
  intro offset
  rw [Cartridge.getElem?_stretch, Cartridge.getElem?_stretch]
  split
  case isTrue within => exact same _ (by omega)
  case isFalse => rfl

theorem codes_eq_of_same :
    romSizeCode second = romSizeCode first ∧
      ramSizeCode second = ramSizeCode first ∧
      kindCode second = kindCode first :=
  ⟨byte_eq_of_same same (by decide), byte_eq_of_same same (by decide),
    byte_eq_of_same same (by decide)⟩

theorem title_eq_of_same : title second = title first := by
  unfold title
  rw [bytes_eq_of_same same (by decide)]

end Same

end Header

namespace Cartridge

/-- Two cartridges differ in their ROMs, but not in the banks that are in view. -/
structure Resembles (first second : Cartridge) : Prop where
  others : second = first.withRom second.rom
  lowerBank : second.romBankBytes 0 = first.romBankBytes 0
  upperBank :
    second.romBankBytes second.romBank = first.romBankBytes first.romBank

theorem Covers.resembles
    {rom : Array UInt8}
    {cartridge : Cartridge}
    (covers : Covers rom cartridge) :
    cartridge.Resembles (cartridge.withRom rom) where
  others := rfl
  lowerBank := by
    have twoBanks := covers.twoBanks
    exact covers.romBankBytes_eq (by omega)
  upperBank := covers.romBankBytes_eq covers.romBank_lt

section Agreement

variable
  {first second : Image}
  {cartridge other : Cartridge}

/-- What is loaded from an image is told by its header, but for the ROM. -/
theorem Represents.eq_withRom
    (represents : Represents first cartridge)
    (otherRepresents : Represents second other)
    (same : ∀ index < Header.size, second[index]? = first[index]?) :
    other = cartridge.withRom second := by
  obtain ⟨sameRomCode, sameRamCode, sameKind⟩ := Header.codes_eq_of_same same
  have romBanks : other.romBanks = cartridge.romBanks := by
    rw [otherRepresents.romBanks, represents.romBanks, sameRomCode]
  have ramBanks : other.ramBanks = cartridge.ramBanks := by
    rw [otherRepresents.ramBanks, represents.ramBanks, sameRamCode]
  have ram : other.ram = cartridge.ram := by
    rw [otherRepresents.ram, represents.ram, sameRamCode, ramBanks]
  have controller : other.controller = cartridge.controller := by
    rw [otherRepresents.controller, represents.controller, sameKind]
  have battery : other.battery = cartridge.battery := by
    rw [Bool.eq_iff_iff, otherRepresents.battery, represents.battery, sameKind]
  have title : other.title = cartridge.title := by
    rw [otherRepresents.title, represents.title, Header.title_eq_of_same same]
  have colour : other.colour = cartridge.colour := by
    rw [otherRepresents.colour, represents.colour, Header.colour,
      Header.colour, Header.byte_eq_of_same same (by decide)]
  have destination : other.destination = cartridge.destination := by
    rw [otherRepresents.destination, represents.destination,
      Header.destination, Header.destination,
      Header.byte_eq_of_same same (by decide)]
  cases other
  rw [withRom, Cartridge.mk.injEq]
  exact
    ⟨otherRepresents.rom, ram, romBanks, ramBanks, controller, title, colour,
      destination, battery⟩

end Agreement

section SameBanks

variable
  {first second : Image}
  {cartridge : Cartridge}
  (loaded : load first = .ok cartridge)
  (sameBanks :
    ∀ index < cartridge.romBanks * 0x4000, second[index]? = first[index]?)
include loaded sameBanks

/-- The header lies in the banks. -/
theorem header_of_sameBanks :
    ∀ index < Header.size, second[index]? = first[index]? := by
  intro index inside
  have twoBanks := (Shaped.load loaded).1.twoBanks
  have sizeOfHeader : Header.size = 0x0150 := rfl
  exact sameBanks index (by omega)

/-- The bytes of all banks of a new cartridge are those of its image. -/
theorem covers_of_sameBanks : Covers second cartridge := by
  obtain ⟨shaped, rom⟩ := Shaped.load loaded
  constructor
  · exact shaped.twoBanks
  · rw [rom]
    exact sameBanks

/-- Another image with these banks is loaded as well, unless it has room for more. -/
theorem load_of_sameBanks
    (held : second.size / 0x4000 = first.size / 0x4000) :
    load second = .ok (cartridge.withRom second) := by
  have same := header_of_sameBanks loaded sameBanks
  have met := (load_enforces first).exists_ok_iff.mp ⟨_, loaded⟩
  rw [requirements_met_iff] at met
  obtain ⟨long, logo, codesSupported⟩ := met
  have stillMet :
      ∀ requirement ∈ requirements second, requirement.met := by
    obtain ⟨sameRomCode, sameRamCode, sameKind⟩ :=
      Header.codes_eq_of_same same
    rw [requirements_met_iff, sameRomCode, sameRamCode, sameKind, held]
    refine ⟨?_, fun offset inside => ?_, codesSupported⟩
    · -- The sizes may differ, but both images have room for two banks.
      obtain ⟨shaped, rom⟩ := Shaped.load loaded
      have twoBanks := shaped.twoBanks
      have banksHeld := shaped.romHeld
      have sizeOfBank : romBankSize = 0x4000 := rfl
      rw [rom, sizeOfBank] at banksHeld
      omega
    · have sizeOfHeader : Header.size = 0x0150 := rfl
      exact (same _ (by omega)).trans (logo offset inside)
  obtain ⟨other, otherLoaded⟩ :=
    (load_enforces second).exists_ok_iff.mpr stillMet
  rw [otherLoaded,
    ((load_enforces first).of_eq_ok loaded).eq_withRom
      ((load_enforces second).of_eq_ok otherLoaded) same]

end SameBanks

end Cartridge

/-- Two machines differ in their ROMs, but not in what can be seen of these. -/
structure Machine.Resembles (first second : Machine) : Prop where
  others : second = first.withRom second.bus.cartridge.rom
  cartridge : first.bus.cartridge.Resembles second.bus.cartridge
  bytes : ∀ address, second.peek address = first.peek address

theorem Machine.resembles_withRom
    {rom : Array UInt8}
    {machine : Machine}
    (covers : Covers rom machine.bus.cartridge) :
    machine.Resembles (machine.withRom rom) where
  others := rfl
  cartridge := covers.resembles
  bytes := Bus.read_withRom covers

namespace Cartridge

/--
An image is loaded if it has a header with the logo and codes that are supported, and as
many whole banks as it declares; any other image is refused for the first of these
requirements that it does not meet.  The cartridge that is loaded represents the image.
Bytes behind its banks make no difference: whatever is done to the cartridges of two images
with the same banks, or to machines with these cartridges, is answered in the same way and
leaves what looks the same.
-/
theorem load_enforces_requirements :
    (∀ image,
      (∃ cartridge, load image = .ok cartridge) ↔
        0x0150 ≤ image.size ∧
          (∀ offset < 48,
            image[0x0104 + offset]? = Header.logo[offset]?) ∧
          Header.SupportsRom (Header.romSizeCode image) ∧
          image.size / 0x4000 =
            Header.declaredRomBanks (Header.romSizeCode image) ∧
          Header.ramSizeCode image ≤ 0x05 ∧
          Header.kindCode image ≤ 0x03) ∧
    (∀ image error,
      load image = .error error ↔ FirstUnmet (requirements image) error) ∧
    (∀ image cartridge,
      load image = .ok cartridge → Represents image cartridge) ∧
    (∀ first second cartridge other,
      load first = .ok cartridge →
        load second = .ok other →
          (∀ index < cartridge.romBanks * 0x4000,
            second[index]? = first[index]?) →
            (∀ operations,
              (cartridge.afterAll operations).Resembles
                (other.afterAll operations)) ∧
              ∀ calls,
                ((Machine.powerOn other).converse calls).1 =
                    ((Machine.powerOn cartridge).converse calls).1 ∧
                  ((Machine.powerOn cartridge).converse calls).2.Resembles
                    ((Machine.powerOn other).converse calls).2) := by
  refine ⟨?_, ?_, ?_, ?_⟩
  · intro image
    exact
      (load_enforces image).exists_ok_iff.trans (requirements_met_iff image)
  · intro image error
    exact (load_enforces image).eq_error_iff
  · intro image cartridge loaded
    exact (load_enforces image).of_eq_ok loaded
  · intro first second cartridge other loaded otherLoaded sameBanks
    have covers := covers_of_sameBanks loaded sameBanks
    have exchanged :=
      ((load_enforces first).of_eq_ok loaded).eq_withRom
        ((load_enforces second).of_eq_ok otherLoaded)
        (header_of_sameBanks loaded sameBanks)
    constructor
    · intro operations
      rw [exchanged, afterAll_withRom]
      exact (covers.of_leads ⟨operations, rfl⟩).resembles
    · intro calls
      have samePower :
          Machine.powerOn other =
            (Machine.powerOn cartridge).withRom second := by
        rw [exchanged]
        rfl
      have machineCovers :
          Covers second (Machine.powerOn cartridge).bus.cartridge :=
        covers
      obtain ⟨sameReplies, covered⟩ :=
        Machine.converse_withRom machineCovers calls
      rw [samePower, sameReplies]
      exact ⟨rfl, Machine.resembles_withRom covered⟩

theorem size_seventyTwoBanks :
    seventyTwoBanks.size = 72 * 0x4000 := by
  rw [seventyTwoBanks, Array.size_append, size_bankedHeader,
    Array.size_replicate]
  rfl

/--
A byte behind 72 banks makes another ROM, but no other cartridge to a machine, while an
image without any bytes is too short.
-/
theorem load_enforces_requirements_seventyTwoBanks :
    ∃ cartridge other,
      load seventyTwoBanks = .ok cartridge ∧
        load (seventyTwoBanks.push 0xAA) = .ok other ∧
        Represents (seventyTwoBanks.push 0xAA) other ∧
        other.rom ≠ cartridge.rom ∧
        ((Machine.powerOn other).converse
            [.call (.poke 0x2000 71), .call (.runFor 40)]).1 =
          ((Machine.powerOn cartridge).converse
            [.call (.poke 0x2000 71), .call (.runFor 40)]).1 ∧
        load #[] = .error (.tooShort 0) := by
  obtain ⟨-, refused, represented, invisible⟩ := load_enforces_requirements
  have loaded := load_seventyTwoBanks
  have sameBanks :
      ∀ index < 72 * 0x4000,
        (seventyTwoBanks.push 0xAA)[index]? = seventyTwoBanks[index]? := by
    intro index inside
    rw [Array.getElem?_push, size_seventyTwoBanks,
      if_neg (Nat.ne_of_lt inside)]
  have otherLoaded :=
    load_of_sameBanks loaded sameBanks
      (by rw [Array.size_push, size_seventyTwoBanks])
  have longer : seventyTwoBanks.push 0xAA ≠ seventyTwoBanks := by
    intro same
    have sameSize := congrArg Array.size same
    rw [Array.size_push] at sameSize
    omega
  have headless : ¬ 0x0150 ≤ (#[] : Image).size := by
    decide
  exact
    ⟨_, _, loaded, otherLoaded, represented _ _ otherLoaded, longer,
      ((invisible _ _ _ _ loaded otherLoaded sameBanks).2 _).1,
      (refused #[] _).mpr (.here headless)⟩

end Cartridge

end Dmg
