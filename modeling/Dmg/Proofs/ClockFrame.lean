import Dmg.Proofs.Advance
import Dmg.Proofs.RegisterPage

namespace Dmg

/-!
# What the clock leaves alone

Catching up with the clock moves the divider, the counter and the line, records in the
status register whether a line coincides, and adds to the interrupt requests.  No other
register of the page reads differently afterwards.
-/

namespace Timer

/-- Increments change nothing but the counter. -/
theorem ticks_counter
    (count : Nat)
    (timer : Timer)
    (requests : UInt8) :
    ∃ counter,
      (ticks count timer requests).1 = { timer with counter := counter } := by
  induction count generalizing timer requests with
  | zero => exact ⟨timer.counter, rfl⟩
  | succ count inductionHypothesis =>
      obtain ⟨counter, left⟩ :=
        inductionHypothesis (timer.tick requests).1
          (timer.tick requests).2
      refine ⟨counter, ?_⟩
      rw [ticks, left]
      unfold tick
      split <;> rfl

/-- The modulo and the control register are only set by the program. -/
theorem advance_settings
    (elapsed : UInt64)
    (timer : Timer)
    (requests : UInt8) :
    (timer.advance elapsed requests).1.modulo = timer.modulo ∧
      (timer.advance elapsed requests).1.control = timer.control := by
  unfold advance advanceCounter
  split
  · obtain ⟨counter, left⟩ := ticks_counter _ _ requests
    rw [left]
    exact ⟨rfl, rfl⟩
  · exact ⟨rfl, rfl⟩

end Timer

namespace Lcd

/-- Moves over lines change nothing but the line and the status. -/
theorem nextLines_frame
    (count : Nat)
    (lcd : Lcd)
    (requests : UInt8) :
    ∃ line status,
      (nextLines count lcd requests).1 =
        { lcd with line := line, status := status } := by
  induction count generalizing lcd requests with
  | zero => exact ⟨lcd.line, lcd.status, rfl⟩
  | succ count inductionHypothesis =>
      obtain ⟨line, status, left⟩ :=
        inductionHypothesis (lcd.nextLine requests).1
          (lcd.nextLine requests).2
      refine ⟨line, status, ?_⟩
      rw [nextLines, left]
      unfold nextLine compareLine
      dsimp only
      split <;> rfl

theorem advance_frame
    (elapsed : UInt64)
    (lcd : Lcd)
    (requests : UInt8) :
    ∃ line status countdown,
      (lcd.advance elapsed requests).1 =
        { lcd with
          line := line
          status := status
          lineCountdown := countdown } := by
  obtain ⟨line, status, left⟩ := nextLines_frame _ _ requests
  exact ⟨line, status, _, left⟩

end Lcd

namespace Peripherals

/-- The addresses of what the clock moves. -/
def clockedAddresses : List UInt16 :=
  [Timer.Register.divider.address, Timer.Register.counter.address,
    0xFF0F, Lcd.Register.status.address, Lcd.Register.line.address]

/-- The requests are read at their own address only. -/
theorem read_withRequests
    {address : UInt16}
    (elsewhere : address ≠ 0xFF0F)
    (peripherals : Peripherals)
    (requests : UInt8) :
    read { peripherals with requests := requests } address =
      peripherals.read address := by
  unfold read
  cases found : Register.ofAddress? address with
  | none => rfl
  | some register =>
      cases register with
      | requests =>
          have home := Register.address?_of_ofAddress? found nofun
          exact absurd (Option.some.inj home).symm elsewhere
      | _ => rfl

/-- Catching up leaves alone what every other register reads as. -/
theorem read_advanceTo_other
    {address : UInt16}
    (unclocked : address ∉ clockedAddresses)
    (peripherals : Peripherals)
    (cycles : UInt64) :
    (peripherals.advanceTo cycles).read address =
      peripherals.read address := by
  have moved {register : Register} {home : UInt16}
      (found : Register.ofAddress? address = some register)
      (notSound : register ≠ .sound)
      (hasHome : register.address? = some home) :
      home ∉ clockedAddresses := by
    have itself := Register.address?_of_ofAddress? found notSound
    cases hasHome.symm.trans itself
    exact unclocked
  unfold read
  cases found : Register.ofAddress? address with
  | none => rfl
  | some register =>
      cases register with
      | timer timerRegister =>
          have settings :=
            peripherals.timer.advance_settings
              (peripherals.elapsedUntil cycles)
              (peripherals.lcd.advance
                (peripherals.elapsedUntil cycles) peripherals.requests).2
          have outside := moved found nofun rfl
          cases timerRegister with
          | divider => exact absurd (by simp [clockedAddresses]) outside
          | counter => exact absurd (by simp [clockedAddresses]) outside
          | modulo => exact congrArg Except.ok settings.1
          | control => exact congrArg Except.ok settings.2
      | lcd lcdRegister =>
          obtain ⟨line, status, countdown, left⟩ :=
            peripherals.lcd.advance_frame
              (peripherals.elapsedUntil cycles) peripherals.requests
          have shown :
              (peripherals.advanceTo cycles).lcd =
                { peripherals.lcd with
                  line := line
                  status := status
                  lineCountdown := countdown } :=
            left
          have outside := moved found nofun rfl
          cases lcdRegister with
          | status => exact absurd (by simp [clockedAddresses]) outside
          | line => exact absurd (by simp [clockedAddresses]) outside
          | _ =>
              simp only [Option.bind_some, get?, shown]
              rfl
      | requests =>
          have outside := moved found nofun rfl
          exact absurd (by simp [clockedAddresses]) outside
      | _ => rfl

end Peripherals

end Dmg
