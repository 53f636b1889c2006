import Dmg.Proofs.CatchUp
import Dmg.Proofs.RegisterPage

namespace Dmg

/-!
# The divider and the line counter as functions of the clock

The countdowns of the divider and of the line are the remainders of the clock by
their periods.  The two counters are its quotients, less the quotients at the time
when each was last cleared.  Stores into registers clear a counter but never shift
the remainders.
-/

namespace Countdown

/--
A countdown that shows what a clock leaves of the current period still does after
time has passed, and has expired once for every period that the clock began.
-/
theorem advance_phase
    {period : Int64}
    {length clock : Nat}
    {elapsed : UInt64}
    {countdown : Countdown}
    (periodLength : period.toInt = length)
    (positive : 0 < length)
    (inPhase : countdown.left.toInt = length - (clock % length : Nat))
    (bounded : elapsed.toNat < 2 ^ 63) :
    (countdown.advance period elapsed).1.left.toInt =
        length - ((clock + elapsed.toNat) % length : Nat) ∧
      clock / length + (countdown.advance period elapsed).2 =
        (clock + elapsed.toNat) / length := by
  have periodPositive : 0 < period :=
    Int64.lt_iff_toInt_lt.mpr (by rw [periodLength, Int64.toInt_zero]; omega)
  have before := Nat.mod_lt clock positive
  have after := Nat.mod_lt (clock + elapsed.toNat) positive
  have advanced :=
    advance_winding period periodPositive
      (show 0 ≤ countdown.left.toInt by omega) bounded
  have ordered : clock / length ≤ (clock + elapsed.toNat) / length :=
    Nat.div_le_div_right (Nat.le_add_right _ _)
  obtain ⟨begun, counted⟩ := Nat.exists_eq_add_of_le ordered
  -- What the clock leaves of its period is a winding too, so it is what is reached.
  have wound :
      Winding period.toInt
        (countdown.left.toInt - elapsed.toNat)
        (length - ((clock + elapsed.toNat) % length : Nat))
        begun := by
    rw [periodLength, inPhase]
    constructor
    · have divided := Nat.div_add_mod clock length
      have dividedAfter := Nat.div_add_mod (clock + elapsed.toNat) length
      rw [counted, Nat.mul_add] at dividedAfter
      have scaled : (begun : Int) * length = (length * begun : Nat) := by
        push_cast
        exact Int.mul_comm _ _
      rw [scaled]
      omega
    · omega
    · exact .inr (by omega)
  obtain ⟨sameLeft, sameExpiries⟩ :=
    advanced.unique (Int64.lt_iff_toInt_lt.mp periodPositive) wound
  exact ⟨sameLeft, by omega⟩

end Countdown

namespace Timer

/-- The divider counts the expiries of its countdown, whatever the counter does. -/
theorem advance_divider
    (elapsed : UInt64)
    (timer : Timer)
    (requests : UInt8) :
    (timer.advance elapsed requests).1.dividerCountdown =
        (timer.dividerCountdown.advance dividerPeriod elapsed).1 ∧
      (timer.advance elapsed requests).1.divider.toNat =
        (timer.divider.toNat +
          (timer.dividerCountdown.advance dividerPeriod elapsed).2) % 256 := by
  have counted :
      (timer.advanceDivider elapsed).divider.toNat =
        (timer.divider.toNat +
          (timer.dividerCountdown.advance dividerPeriod elapsed).2) %
          256 := by
    unfold advanceDivider
    rw [UInt8.toNat_add, UInt8.toNat_ofNat']
    omega
  unfold advance advanceCounter
  split
  · dsimp only
    obtain ⟨sameDivider, sameCountdown, -, -⟩ :=
      ticks_frame
        ((timer.advanceDivider elapsed).counterCountdown.advance
          (timer.advanceDivider elapsed).period elapsed).2
        { timer.advanceDivider elapsed with
          counterCountdown :=
            ((timer.advanceDivider elapsed).counterCountdown.advance
              (timer.advanceDivider elapsed).period elapsed).1 }
        requests
    rw [sameDivider, sameCountdown]
    exact ⟨rfl, counted⟩
  · exact ⟨rfl, counted⟩

/-- A store into a register leaves the divider's countdown, and clears at most the divider. -/
theorem set_divider
    (timer : Timer)
    (register : Register)
    (value : UInt8) :
    (timer.set register value).dividerCountdown =
        timer.dividerCountdown ∧
      (timer.set register value).divider =
        if register = .divider then 0 else timer.divider := by
  cases register <;> exact ⟨rfl, rfl⟩

end Timer

namespace Lcd

/-- The line after a line of the frame, as a number. -/
theorem toNat_lineAfter
    {line : UInt8}
    (inFrame : line.toNat < 154) :
    (lineAfter line).toNat = (line.toNat + 1) % 154 := by
  have next : (line + 1).toNat = line.toNat + 1 := by
    rw [UInt8.toNat_add, UInt8.toNat_one]
    omega
  unfold lineAfter linesPerFrame
  by_cases last : line + 1 = 154
  · have isLast : line.toNat + 1 = 154 := by
      rw [← next, last]
      rfl
    rw [if_pos last, isLast]
    rfl
  · have notLast : line.toNat + 1 ≠ 154 := by
      intro same
      apply last
      apply UInt8.toNat_inj.mp
      rw [next, same]
      rfl
    rw [if_neg last, next]
    omega

/-- A move to the next line leaves the status register's comparison out of the line. -/
theorem nextLine_line
    (lcd : Lcd)
    (requests : UInt8) :
    (lcd.nextLine requests).1.line = lineAfter lcd.line := by
  unfold nextLine compareLine
  dsimp only
  split <;> rfl

/-- Moves over lines go round the 154 lines of the frame. -/
theorem nextLines_line
    {lcd : Lcd}
    (inFrame : lcd.line.toNat < 154)
    (count : Nat)
    (requests : UInt8) :
    (nextLines count lcd requests).1.line.toNat =
      (lcd.line.toNat + count) % 154 := by
  induction count generalizing lcd requests with
  | zero =>
      exact (Nat.mod_eq_of_lt inFrame).symm
  | succ count inductionHypothesis =>
      have moved :
          (lcd.nextLine requests).1.line.toNat =
            (lcd.line.toNat + 1) % 154 := by
        rw [nextLine_line, toNat_lineAfter inFrame]
      rw [nextLines, inductionHypothesis (by omega), moved]
      omega

/-- The line counter counts the expiries of its countdown, round the frame. -/
theorem advance_line
    {lcd : Lcd}
    (inFrame : lcd.line.toNat < 154)
    (elapsed : UInt64)
    (requests : UInt8) :
    (lcd.advance elapsed requests).1.lineCountdown =
        (lcd.lineCountdown.advance cyclesPerLine elapsed).1 ∧
      (lcd.advance elapsed requests).1.line.toNat =
        (lcd.line.toNat +
          (lcd.lineCountdown.advance cyclesPerLine elapsed).2) % 154 := by
  let advanced := lcd.lineCountdown.advance cyclesPerLine elapsed
  let started := { lcd with lineCountdown := advanced.1 }
  have startedInFrame : started.line.toNat < 154 :=
    inFrame
  constructor
  · exact nextLines_lineCountdown advanced.2 started requests
  · exact nextLines_line startedInFrame advanced.2 requests

/-- A store into a register leaves the line's countdown, and clears at most the line. -/
theorem set_line
    (lcd : Lcd)
    (register : Register)
    (value : UInt8) :
    (lcd.set register value).lineCountdown = lcd.lineCountdown ∧
      (lcd.set register value).line =
        if register = .line then 0 else lcd.line := by
  cases register <;> exact ⟨rfl, rfl⟩

end Lcd

namespace Peripherals

/--
The divider and the line counter agree with the clock, if they were last cleared when
the clock stood at the two given counts.
-/
structure InPhase
    (peripherals : Peripherals)
    (dividerCleared lineCleared : Nat) :
    Prop where
  dividerCountdown :
    peripherals.timer.dividerCountdown.left.toInt =
      256 - (peripherals.clock.toNat % 256 : Nat)
  divider :
    peripherals.timer.divider.toNat =
      (peripherals.clock.toNat / 256 - dividerCleared / 256) % 256
  dividerPast : dividerCleared ≤ peripherals.clock.toNat
  lineCountdown :
    peripherals.lcd.lineCountdown.left.toInt =
      456 - (peripherals.clock.toNat % 456 : Nat)
  line :
    peripherals.lcd.line.toNat =
      (peripherals.clock.toNat / 456 - lineCleared / 456) % 154
  linePast : lineCleared ≤ peripherals.clock.toNat

namespace InPhase

theorem powerOn : Peripherals.powerOn.InPhase 0 0 where
  dividerCountdown := by decide
  divider := by decide
  dividerPast := by decide
  lineCountdown := by decide
  line := by decide
  linePast := by decide

theorem advanceTo
    {peripherals : Peripherals}
    {dividerCleared lineCleared : Nat}
    {cycles : UInt64}
    (inPhase : peripherals.InPhase dividerCleared lineCleared)
    (ahead : peripherals.clock ≤ cycles)
    (bounded : cycles.toNat < 2 ^ 63) :
    (peripherals.advanceTo cycles).InPhase dividerCleared lineCleared := by
  have order := UInt64.le_iff_toNat_le.mp ahead
  have elapses := UInt64.toNat_sub_of_le _ _ ahead
  have elapsedBounded : (cycles - peripherals.clock).toNat < 2 ^ 63 := by
    omega
  have whole :
      peripherals.clock.toNat + (cycles - peripherals.clock).toNat =
        cycles.toNat := by
    omega
  obtain ⟨dividerLeft, dividerExpiries⟩ :=
    Countdown.advance_phase
      (show Timer.dividerPeriod.toInt = (256 : Nat) from rfl)
      (by decide) inPhase.dividerCountdown elapsedBounded
  obtain ⟨lineLeft, lineExpiries⟩ :=
    Countdown.advance_phase
      (show Lcd.cyclesPerLine.toInt = (456 : Nat) from rfl)
      (by decide) inPhase.lineCountdown elapsedBounded
  have divider := inPhase.divider
  have dividerPast := inPhase.dividerPast
  have line := inPhase.line
  have linePast := inPhase.linePast
  have lineInFrame : peripherals.lcd.line.toNat < 154 := by
    omega
  rw [whole] at dividerLeft dividerExpiries lineLeft lineExpiries
  obtain ⟨dividerCountdown, dividerCounted⟩ :=
    Timer.advance_divider (cycles - peripherals.clock) peripherals.timer 0
  obtain ⟨lineCountdown, lineCounted⟩ :=
    Lcd.advance_line lineInFrame (cycles - peripherals.clock) 0
  rw [advanceTo_eq (elapsedUntil_of_le ahead)]
  constructor
  · exact (congrArg (·.left.toInt) dividerCountdown).trans dividerLeft
  · refine dividerCounted.trans ?_
    dsimp only
    omega
  · exact Nat.le_trans dividerPast order
  · exact (congrArg (·.left.toInt) lineCountdown).trans lineLeft
  · refine lineCounted.trans ?_
    dsimp only
    omega
  · exact Nat.le_trans linePast order

/-- Being in phase is a matter of the clock, the timer and the display. -/
theorem of_same
    {peripherals other : Peripherals}
    {dividerCleared lineCleared : Nat}
    (inPhase : peripherals.InPhase dividerCleared lineCleared)
    (sameClock : other.clock = peripherals.clock)
    (sameTimer : other.timer = peripherals.timer)
    (sameLcd : other.lcd = peripherals.lcd) :
    other.InPhase dividerCleared lineCleared := by
  constructor
  · rw [sameClock, sameTimer]
    exact inPhase.dividerCountdown
  · rw [sameClock, sameTimer]
    exact inPhase.divider
  · rw [sameClock]
    exact inPhase.dividerPast
  · rw [sameClock, sameLcd]
    exact inPhase.lineCountdown
  · rw [sameClock, sameLcd]
    exact inPhase.line
  · rw [sameClock]
    exact inPhase.linePast

end InPhase

/-- A register other than the sound registers is found at one address. -/
theorem Register.ofAddress?_eq_iff
    {home : UInt16}
    {register : Register}
    (atHome : Register.ofAddress? home = some register)
    (notSound : register ≠ .sound)
    (address : UInt16) :
    Register.ofAddress? address = some register ↔ address = home := by
  constructor
  · intro found
    exact Register.address_unique found atHome notSound
  · rintro rfl
    exact atHome

/-- A store into a register touches neither the clock nor the two countdowns. -/
theorem set_countdowns
    (peripherals : Peripherals)
    (register : Register)
    (value : UInt8) :
    (peripherals.set register value).clock = peripherals.clock ∧
      (peripherals.set register value).timer.dividerCountdown =
        peripherals.timer.dividerCountdown ∧
      (peripherals.set register value).lcd.lineCountdown =
        peripherals.lcd.lineCountdown := by
  cases register with
  | timer timerRegister =>
      exact ⟨rfl, (Timer.set_divider _ timerRegister value).1, rfl⟩
  | lcd lcdRegister =>
      exact ⟨rfl, rfl, (Lcd.set_line _ lcdRegister value).1⟩
  | _ => exact ⟨rfl, rfl, rfl⟩

@[simp]
theorem write_clock
    (peripherals : Peripherals)
    (address : UInt16)
    (value : UInt8) :
    (peripherals.write address value).clock = peripherals.clock := by
  unfold write
  cases Register.ofAddress? address with
  | none => rfl
  | some register => exact (set_countdowns peripherals register value).1

/-- A store into a register clears the divider or the line counter if it is that register. -/
theorem set_counters
    (peripherals : Peripherals)
    (register : Register)
    (value : UInt8) :
    (peripherals.set register value).timer.divider =
        (if register = .timer .divider then 0
          else peripherals.timer.divider) ∧
      (peripherals.set register value).lcd.line =
        (if register = .lcd .line then 0 else peripherals.lcd.line) := by
  cases register with
  | timer timerRegister =>
      refine ⟨?_, rfl⟩
      refine (Timer.set_divider _ timerRegister value).2.trans ?_
      simp only [Register.timer.injEq]
  | lcd lcdRegister =>
      refine ⟨rfl, ?_⟩
      refine (Lcd.set_line _ lcdRegister value).2.trans ?_
      simp only [Register.lcd.injEq]
  | _ => exact ⟨rfl, rfl⟩

/-- A store clears the counter whose address it names, and is recorded as having done so. -/
theorem InPhase.write
    {peripherals : Peripherals}
    {dividerCleared lineCleared : Nat}
    (inPhase : peripherals.InPhase dividerCleared lineCleared)
    (address : UInt16)
    (value : UInt8) :
    (peripherals.write address value).InPhase
      (if address = 0xFF04 then peripherals.clock.toNat
        else dividerCleared)
      (if address = 0xFF44 then peripherals.clock.toNat
        else lineCleared) := by
  have isDivider :=
    Register.ofAddress?_eq_iff
      (show Register.ofAddress? 0xFF04 = some (.timer .divider) from rfl)
      (by decide) address
  have isLine :=
    Register.ofAddress?_eq_iff
      (show Register.ofAddress? 0xFF44 = some (.lcd .line) from rfl)
      (by decide) address
  -- The two counts are told apart by the register that is found, as the store itself is.
  simp only [← isDivider, ← isLine]
  unfold Peripherals.write
  cases found : Register.ofAddress? address with
  | none => exact inPhase
  | some register =>
      obtain ⟨sameClock, sameDividerLeft, sameLineLeft⟩ :=
        set_countdowns peripherals register value
      obtain ⟨divider, line⟩ := set_counters peripherals register value
      simp only [Option.some.injEq]
      constructor
      · rw [sameClock, sameDividerLeft]
        exact inPhase.dividerCountdown
      · rw [sameClock, divider]
        split
        · simp
        · exact inPhase.divider
      · rw [sameClock]
        split
        · exact Nat.le_refl _
        · exact inPhase.dividerPast
      · rw [sameClock, sameLineLeft]
        exact inPhase.lineCountdown
      · rw [sameClock, line]
        split
        · simp
        · exact inPhase.line
      · rw [sameClock]
        split
        · exact Nat.le_refl _
        · exact inPhase.linePast

end Peripherals

end Dmg
