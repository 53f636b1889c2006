import Dmg.Proofs.CatchUp
import Dmg.Proofs.MemoryMap
import Dmg.Proofs.Moves
import Mathlib.Data.Nat.Bitwise

namespace Dmg

/-!
# How interrupt requests come and go

The program can store requests, at one address.  The clock adds to them, and only those
of the vertical blank and of the timer.  Nothing else touches them, apart from the
dispatch that withdraws one.  Every source has one bit of its own, and a byte masked with
a single bit holds that bit or nothing.
-/

namespace Byte

/-- Joined masks leave what each of them leaves. -/
theorem and_or (value left right : UInt8) :
    value &&& (left ||| right) = value &&& left ||| value &&& right := by
  apply UInt8.toBitVec_inj.mp
  simp only [UInt8.toBitVec_and, UInt8.toBitVec_or]
  exact BitVec.and_or_distrib_left

section Single

variable
  {mask : UInt8}
  {index : Nat}
  (power : mask.toNat = 2 ^ index)
  (value : UInt8)
include power

/-- What is left of a byte under a single bit shows that bit. -/
theorem masked_eq_testBit :
    (value &&& mask != 0) = value.toNat.testBit index := by
  have masked :
      (value &&& mask).toNat =
        (value.toNat.testBit index).toNat * 2 ^ index := by
    rw [UInt8.toNat_and, power, Nat.and_two_pow]
  have nonzero :
      value &&& mask ≠ 0 ↔ value.toNat.testBit index = true := by
    rw [ne_eq, ← UInt8.toNat_inj, masked, UInt8.toNat_zero,
      Nat.mul_eq_zero]
    simp
  exact Bool.eq_iff_iff.mpr (bne_iff_ne.trans nonzero)

/-- What is left of a byte under a single bit is that bit or nothing. -/
theorem and_eq_weigh :
    value &&& mask = Flags.weigh (value &&& mask != 0) mask := by
  apply UInt8.toNat_inj.mp
  rw [masked_eq_testBit power, UInt8.toNat_and, power, Nat.and_two_pow]
  cases value.toNat.testBit index with
  | false => exact Nat.zero_mul _
  | true => exact (Nat.one_mul _).trans power.symm

end Single

end Byte

/-- Bits that a mask hides can be set without being seen through it. -/
theorem or_and_of_hidden
    {bits mask : UInt8}
    (hidden : bits &&& mask = 0)
    (byte : UInt8) :
    (byte ||| bits) &&& mask = byte &&& mask := by
  rw [UInt8.and_comm, Byte.and_or, UInt8.and_comm mask bits, hidden,
    UInt8.or_zero, UInt8.and_comm]

/-- The address at which requests can be stored. -/
def requestAddress : UInt16 :=
  0xFF0F

/-- Nothing in a journal is a store at the address of the requests. -/
def RequestsUnwritten (journal : List Event) : Prop :=
  ∀ value, Event.write requestAddress value ∉ journal

theorem RequestsUnwritten.of_cons
    {event : Event}
    {journal : List Event}
    (unwritten : RequestsUnwritten (event :: journal)) :
    RequestsUnwritten journal :=
  fun value member => unwritten value (List.mem_cons_of_mem event member)

theorem RequestsUnwritten.elsewhere
    {address : UInt16}
    {value : UInt8}
    {journal : List Event}
    (unwritten : RequestsUnwritten (.write address value :: journal)) :
    address ≠ requestAddress := by
  rintro rfl
  exact unwritten value List.mem_cons_self

namespace Interrupt

/-- The bits of the sources that the clock can raise. -/
def clockBits : UInt8 :=
  vBlank.bit ||| timer.bit

/-- A request leaves every bit alone that is not its own. -/
theorem request_and
    {source : Interrupt}
    {mask : UInt8}
    (outside : source.bit &&& mask = 0)
    (requests : UInt8) :
    source.request requests &&& mask = requests &&& mask :=
  or_and_of_hidden outside requests

/-- Requesting service twice is requesting it once. -/
@[simp]
theorem request_request
    (source : Interrupt)
    (requests : UInt8) :
    source.request (source.request requests) = source.request requests := by
  rw [request, request, UInt8.or_assoc, UInt8.or_self]

end Interrupt

/-- The counter raises no request but that of the timer. -/
theorem Timer.ticks_and
    {mask : UInt8}
    (outside : Interrupt.timer.bit &&& mask = 0)
    (count : Nat)
    (timer : Timer)
    (requests : UInt8) :
    (ticks count timer requests).2 &&& mask = requests &&& mask := by
  induction count generalizing timer requests with
  | zero => rfl
  | succ count inductionHypothesis =>
      rw [ticks, inductionHypothesis]
      unfold tick
      split
      · exact Interrupt.request_and outside requests
      · rfl

/-- The line counter raises no request but that of the vertical blank. -/
theorem Lcd.nextLines_and
    {mask : UInt8}
    (outside : Interrupt.vBlank.bit &&& mask = 0)
    (count : Nat)
    (lcd : Lcd)
    (requests : UInt8) :
    (nextLines count lcd requests).2 &&& mask = requests &&& mask := by
  induction count generalizing lcd requests with
  | zero => rfl
  | succ count inductionHypothesis =>
      rw [nextLines, inductionHypothesis]
      unfold nextLine
      dsimp only
      split
      · exact Interrupt.request_and outside requests
      · rfl

namespace Peripherals

/-- The requests that catching up with a cycle count raises. -/
def raisedUntil
    (peripherals : Peripherals)
    (cycles : UInt64) :
    UInt8 :=
  ({ peripherals with requests := 0 }.advanceTo cycles).requests

/-- Catching up adds what it raises to the requests. -/
theorem advanceTo_requests
    (peripherals : Peripherals)
    (cycles : UInt64) :
    (peripherals.advanceTo cycles).requests =
      peripherals.requests ||| peripherals.raisedUntil cycles := by
  have cleared :
      { peripherals with requests := 0 }.elapsedUntil cycles =
        peripherals.elapsedUntil cycles :=
    rfl
  unfold raisedUntil
  rw [advanceTo_eq rfl, advanceTo_eq cleared]
  dsimp only
  rw [UInt8.zero_or, UInt8.or_assoc]

/-- Catching up raises no request but those of the vertical blank and the timer. -/
theorem raisedUntil_and
    (peripherals : Peripherals)
    (cycles : UInt64) :
    peripherals.raisedUntil cycles &&& ~~~Interrupt.clockBits = 0 := by
  unfold raisedUntil advanceTo Timer.advance Timer.advanceCounter Lcd.advance
  dsimp only
  split
  · rw [Timer.ticks_and (by decide), Lcd.nextLines_and (by decide)]
    rfl
  · rw [Lcd.nextLines_and (by decide)]
    rfl

/-- A store at another address leaves the requests as they are. -/
theorem write_requests
    {address : UInt16}
    (elsewhere : address ≠ requestAddress)
    (peripherals : Peripherals)
    (value : UInt8) :
    (peripherals.write address value).requests = peripherals.requests := by
  unfold write
  cases found : Register.ofAddress? address with
  | none => rfl
  | some register =>
      cases register with
      | requests =>
          have home := Register.address?_of_ofAddress? found (by decide)
          cases home
          exact absurd rfl elsewhere
      | _ => rfl

end Peripherals

/-- A store at another address leaves the requests as they are, wherever it goes. -/
theorem Bus.write_requests
    {address : UInt16}
    (elsewhere : address ≠ requestAddress)
    (bus : Bus)
    (value : UInt8) :
    (bus.write address value).peripherals.requests =
      bus.peripherals.requests := by
  rw [Bus.write_peripherals, Peripherals.write_requests elsewhere]

theorem Bus.transfer_requests (bus : Bus) :
    bus.transfer.bus.peripherals.requests = bus.peripherals.requests := by
  obtain ⟨bytes, page, transferred⟩ := bus.transfer_frame
  rw [transferred]

/-- Moves that store no requests leave them as they are. -/
theorem Execution.requests_of_moves
    {start final : Execution}
    (moves : Moves start final)
    (unwritten : RequestsUnwritten final.journal) :
    final.bus.peripherals.requests = start.bus.peripherals.requests := by
  induction moves with
  | refl => rfl
  | tail _ move inductionHypothesis =>
      cases move with
      | registers => exact inductionHypothesis unwritten
      | note => exact inductionHypothesis unwritten.of_cons
      | store address value =>
          rw [storing_bus, Bus.write_requests unwritten.elsewhere]
          exact inductionHypothesis unwritten.of_cons

end Dmg
