import Dmg.Peripherals
import Dmg.Proofs.Countdown

namespace Dmg

/-!
# Letting time pass in portions

The timer and the display only ever add to the interrupt requests, and what they do
to themselves does not depend on the requests they are handed.  So the order in
which the two units catch up is of no importance, and catching up in portions
reaches the same state as catching up at once.
-/

namespace Timer

/-- An increment adds to the requests and does not depend on them. -/
theorem tick_requests
    (timer : Timer)
    (requests : UInt8) :
    timer.tick requests =
      ((timer.tick 0).1, requests ||| (timer.tick 0).2) := by
  unfold tick
  split <;> simp [Interrupt.request]

theorem ticks_requests
    (count : Nat)
    (timer : Timer)
    (requests : UInt8) :
    ticks count timer requests =
      ((ticks count timer 0).1, requests ||| (ticks count timer 0).2) := by
  induction count generalizing timer requests with
  | zero =>
      simp [ticks]
  | succ count inductionHypothesis =>
      rw [ticks, ticks, tick_requests, inductionHypothesis,
        inductionHypothesis (timer.tick 0).1 (timer.tick 0).2,
        UInt8.or_assoc]

/-- Increments one after the other add up. -/
theorem ticks_add
    (first second : Nat)
    (timer : Timer)
    (requests : UInt8) :
    ticks (first + second) timer requests =
      ticks second
        (ticks first timer requests).1
        (ticks first timer requests).2 := by
  induction first generalizing timer requests with
  | zero =>
      simp [ticks]
  | succ first inductionHypothesis =>
      rw [Nat.succ_add, ticks, inductionHypothesis, ticks]

/-- Increments change nothing but the counter. -/
theorem ticks_with
    (count : Nat)
    (timer : Timer)
    (requests divider : UInt8)
    (dividerCountdown counterCountdown : Countdown) :
    ticks count
        { timer with
          divider := divider
          dividerCountdown := dividerCountdown
          counterCountdown := counterCountdown }
        requests =
      ({ (ticks count timer requests).1 with
          divider := divider
          dividerCountdown := dividerCountdown
          counterCountdown := counterCountdown },
        (ticks count timer requests).2) := by
  induction count generalizing timer requests with
  | zero =>
      rfl
  | succ count inductionHypothesis =>
      rw [ticks, ticks, ← inductionHypothesis]
      unfold tick
      split <;> rfl

theorem ticks_frame
    (count : Nat)
    (timer : Timer)
    (requests : UInt8) :
    (ticks count timer requests).1.divider = timer.divider ∧
      (ticks count timer requests).1.dividerCountdown =
        timer.dividerCountdown ∧
      (ticks count timer requests).1.counterCountdown =
        timer.counterCountdown ∧
      (ticks count timer requests).1.control = timer.control := by
  induction count generalizing timer requests with
  | zero =>
      exact ⟨rfl, rfl, rfl, rfl⟩
  | succ count inductionHypothesis =>
      have ticked :
          (timer.tick requests).1 =
            { timer with counter := (timer.tick requests).1.counter } := by
        unfold tick
        split <;> rfl
      have frame :=
        inductionHypothesis
          (timer.tick requests).1 (timer.tick requests).2
      rw [ticked] at frame
      rw [ticks, ticked]
      exact frame

/-- Every period that the control register can select is positive. -/
theorem period_pos (timer : Timer) :
    0 < timer.period := by
  simp only [period]
  split
  · decide
  · split
    · decide
    · split <;> decide

/-- The counter advances in the same way whatever the divider does. -/
theorem advanceCounter_advanceDivider
    (elapsed dividerElapsed : UInt64)
    (timer : Timer)
    (requests : UInt8) :
    (timer.advanceDivider dividerElapsed).advanceCounter elapsed requests =
      ((timer.advanceCounter elapsed requests).1.advanceDivider dividerElapsed,
        (timer.advanceCounter elapsed requests).2) := by
  have sameEnabled :
      (timer.advanceDivider dividerElapsed).enabled = timer.enabled :=
    rfl
  unfold advanceCounter
  rw [sameEnabled]
  split
  · let advanced := timer.counterCountdown.advance timer.period elapsed
    let started := { timer with counterCountdown := advanced.1 }
    obtain ⟨sameDivider, sameCountdown, sameCounterCountdown, -⟩ :=
      ticks_frame advanced.2 started requests
    have commuted :=
      ticks_with advanced.2 started requests
        (timer.advanceDivider dividerElapsed).divider
        (timer.advanceDivider dividerElapsed).dividerCountdown
        advanced.1
    refine commuted.trans (Prod.ext ?_ rfl)
    simp only [advanceDivider, started, advanced,
      sameDivider, sameCountdown, sameCounterCountdown]
  · rfl

/-- The divider advances in portions as at once. -/
theorem advanceDivider_add
    {first second : UInt64}
    {timer : Timer}
    (standing : 0 ≤ timer.dividerCountdown.left.toInt)
    (bounded : first.toNat + second.toNat < 2 ^ 63) :
    timer.advanceDivider (first + second) =
      (timer.advanceDivider first).advanceDivider second := by
  unfold advanceDivider
  rw [Countdown.advance_add (by decide) standing bounded]
  simp [UInt8.ofNat_add, UInt8.add_assoc]

/-- The counter's increments go on in the same way whatever its countdown says. -/
theorem ticks_with_counterCountdown
    (count : Nat)
    (timer : Timer)
    (requests : UInt8)
    (countdown : Countdown) :
    ticks count { timer with counterCountdown := countdown } requests =
      ({ (ticks count timer requests).1 with
          counterCountdown := countdown },
        (ticks count timer requests).2) := by
  obtain ⟨sameDivider, sameCountdown, -, -⟩ :=
    ticks_frame count timer requests
  have changed :=
    ticks_with count timer requests
      timer.divider timer.dividerCountdown countdown
  refine changed.trans (Prod.ext ?_ rfl)
  simp only [← sameDivider, ← sameCountdown]

/-- The counter advances in portions as at once. -/
theorem advanceCounter_add
    {first second : UInt64}
    {timer : Timer}
    (standing : 0 ≤ timer.counterCountdown.left.toInt)
    (bounded : first.toNat + second.toNat < 2 ^ 63)
    (requests : UInt8) :
    timer.advanceCounter (first + second) requests =
      (timer.advanceCounter first requests).1.advanceCounter second
        (timer.advanceCounter first requests).2 := by
  by_cases running : timer.enabled
  · let portion := timer.counterCountdown.advance timer.period first
    let rest := portion.1.advance timer.period second
    let middle :=
      ticks portion.2 { timer with counterCountdown := portion.1 } requests
    obtain ⟨-, -, sameCountdown, sameControl⟩ :=
      ticks_frame portion.2
        { timer with counterCountdown := portion.1 } requests
    have middleRunning : middle.1.enabled := by
      rw [← running]
      exact congrArg (· &&& 0x04 != 0) sameControl
    have middlePeriod : middle.1.period = timer.period := by
      unfold period
      rw [sameControl]
    -- The increments of both portions add up, since they do not see the countdown that
    -- is set between them.
    have atOnce :
        timer.advanceCounter (first + second) requests =
          ticks (portion.2 + rest.2)
            { timer with counterCountdown := rest.1 } requests := by
      rw [advanceCounter, if_pos running]
      dsimp only
      rw [Countdown.advance_add timer.period_pos standing bounded]
    have firstPortion : timer.advanceCounter first requests = middle := by
      rw [advanceCounter, if_pos running]
    have secondPortion :
        middle.1.advanceCounter second middle.2 =
          ticks rest.2
            { middle.1 with counterCountdown := rest.1 } middle.2 := by
      rw [advanceCounter, if_pos middleRunning]
      dsimp only
      rw [middlePeriod, sameCountdown]
    have rewound :
        ticks portion.2 { timer with counterCountdown := rest.1 } requests =
          ({ middle.1 with counterCountdown := rest.1 }, middle.2) :=
      ticks_with_counterCountdown portion.2
        { timer with counterCountdown := portion.1 } requests rest.1
    rw [atOnce, firstPortion, secondPortion, ticks_add, rewound]
  · simp [advanceCounter, running]

/-- Letting time pass adds to the requests and does not depend on them. -/
theorem advance_requests
    (elapsed : UInt64)
    (timer : Timer)
    (requests : UInt8) :
    timer.advance elapsed requests =
      ((timer.advance elapsed 0).1,
        requests ||| (timer.advance elapsed 0).2) := by
  unfold advance advanceCounter
  split
  · exact ticks_requests _ _ requests
  · simp

/-- Neither countdown of the timer has run below zero. -/
structure Standing (timer : Timer) : Prop where
  divider : 0 ≤ timer.dividerCountdown.left.toInt
  counter : 0 ≤ timer.counterCountdown.left.toInt

theorem advanceCounter_dividerCountdown
    (elapsed : UInt64)
    (timer : Timer)
    (requests : UInt8) :
    (timer.advanceCounter elapsed requests).1.dividerCountdown =
      timer.dividerCountdown := by
  unfold advanceCounter
  split
  · exact (ticks_frame _ _ _).2.1
  · rfl

/-- The counter's time leaves the counter's countdown standing. -/
theorem advanceCounter_counterCountdown_standing
    {elapsed : UInt64}
    {timer : Timer}
    (standing : 0 ≤ timer.counterCountdown.left.toInt)
    (bounded : elapsed.toNat < 2 ^ 63)
    (requests : UInt8) :
    0 ≤ (timer.advanceCounter elapsed requests).1.counterCountdown.left.toInt := by
  unfold advanceCounter
  split
  · dsimp only
    rw [(ticks_frame _ _ _).2.2.1]
    exact Int.le_of_lt
      (Countdown.advance_winding timer.period
        timer.period_pos standing bounded).positive
  · exact standing

/-- The two parts of the timer may catch up in either order. -/
theorem advance_eq
    (elapsed : UInt64)
    (timer : Timer)
    (requests : UInt8) :
    timer.advance elapsed requests =
      ((timer.advanceCounter elapsed requests).1.advanceDivider elapsed,
        (timer.advanceCounter elapsed requests).2) :=
  advanceCounter_advanceDivider elapsed elapsed timer requests

/-- Letting time pass leaves both countdowns standing. -/
theorem Standing.advance
    {elapsed : UInt64}
    {timer : Timer}
    (standing : timer.Standing)
    (bounded : elapsed.toNat < 2 ^ 63)
    (requests : UInt8) :
    (timer.advance elapsed requests).1.Standing := by
  rw [advance_eq]
  constructor
  · have dividerStanding :
        0 ≤ (timer.advanceCounter elapsed
          requests).1.dividerCountdown.left.toInt := by
      rw [advanceCounter_dividerCountdown]
      exact standing.divider
    exact Int.le_of_lt
      (Countdown.advance_winding dividerPeriod
        (by decide) dividerStanding bounded).positive
  · exact advanceCounter_counterCountdown_standing
      standing.counter bounded requests

/-- The timer catches up in portions as at once. -/
theorem advance_add
    {first second : UInt64}
    {timer : Timer}
    (standing : timer.Standing)
    (bounded : first.toNat + second.toNat < 2 ^ 63)
    (requests : UInt8) :
    timer.advance (first + second) requests =
      (timer.advance first requests).1.advance second
        (timer.advance first requests).2 := by
  have dividerStanding :
      0 ≤ (timer.advanceCounter (first + second)
        requests).1.dividerCountdown.left.toInt := by
    rw [advanceCounter_dividerCountdown]
    exact standing.divider
  rw [advance_eq, advance_eq first, advance_eq second,
    advanceCounter_advanceDivider,
    advanceDivider_add dividerStanding bounded,
    advanceCounter_add standing.counter bounded]

end Timer

namespace Lcd

/-- A move to the next line adds to the requests and does not depend on them. -/
theorem nextLine_requests
    (lcd : Lcd)
    (requests : UInt8) :
    lcd.nextLine requests =
      ((lcd.nextLine 0).1, requests ||| (lcd.nextLine 0).2) := by
  simp only [nextLine]
  split <;> simp [Interrupt.request]

theorem nextLines_requests
    (count : Nat)
    (lcd : Lcd)
    (requests : UInt8) :
    nextLines count lcd requests =
      ((nextLines count lcd 0).1,
        requests ||| (nextLines count lcd 0).2) := by
  induction count generalizing lcd requests with
  | zero =>
      simp [nextLines]
  | succ count inductionHypothesis =>
      rw [nextLines, nextLines, nextLine_requests, inductionHypothesis,
        inductionHypothesis (lcd.nextLine 0).1 (lcd.nextLine 0).2,
        UInt8.or_assoc]

theorem nextLines_add
    (first second : Nat)
    (lcd : Lcd)
    (requests : UInt8) :
    nextLines (first + second) lcd requests =
      nextLines second
        (nextLines first lcd requests).1
        (nextLines first lcd requests).2 := by
  induction first generalizing lcd requests with
  | zero =>
      simp [nextLines]
  | succ first inductionHypothesis =>
      rw [Nat.succ_add, nextLines, inductionHypothesis, nextLines]

/-- A move to the next line goes the same way whatever the countdown says. -/
theorem nextLine_with
    (lcd : Lcd)
    (requests : UInt8)
    (countdown : Countdown) :
    nextLine { lcd with lineCountdown := countdown } requests =
      ({ (lcd.nextLine requests).1 with lineCountdown := countdown },
        (lcd.nextLine requests).2) := by
  simp only [nextLine, compareLine]
  split <;> rfl

theorem nextLines_with
    (count : Nat)
    (lcd : Lcd)
    (requests : UInt8)
    (countdown : Countdown) :
    nextLines count { lcd with lineCountdown := countdown } requests =
      ({ (nextLines count lcd requests).1 with
          lineCountdown := countdown },
        (nextLines count lcd requests).2) := by
  induction count generalizing lcd requests with
  | zero =>
      rfl
  | succ count inductionHypothesis =>
      rw [nextLines, nextLines, nextLine_with, inductionHypothesis]

theorem nextLines_lineCountdown
    (count : Nat)
    (lcd : Lcd)
    (requests : UInt8) :
    (nextLines count lcd requests).1.lineCountdown = lcd.lineCountdown :=
  congrArg (·.1.lineCountdown)
    (nextLines_with count lcd requests lcd.lineCountdown)

theorem advance_requests
    (elapsed : UInt64)
    (lcd : Lcd)
    (requests : UInt8) :
    lcd.advance elapsed requests =
      ((lcd.advance elapsed 0).1,
        requests ||| (lcd.advance elapsed 0).2) :=
  nextLines_requests _ _ requests

/-- The countdown of the line has not run below zero. -/
def Standing (lcd : Lcd) : Prop :=
  0 ≤ lcd.lineCountdown.left.toInt

theorem Standing.advance
    {elapsed : UInt64}
    {lcd : Lcd}
    (standing : lcd.Standing)
    (bounded : elapsed.toNat < 2 ^ 63)
    (requests : UInt8) :
    (lcd.advance elapsed requests).1.Standing := by
  unfold Standing Lcd.advance
  dsimp only
  rw [nextLines_lineCountdown]
  exact Int.le_of_lt
    (Countdown.advance_winding cyclesPerLine
      (by decide) standing bounded).positive

/-- The display catches up in portions as at once. -/
theorem advance_add
    {first second : UInt64}
    {lcd : Lcd}
    (standing : lcd.Standing)
    (bounded : first.toNat + second.toNat < 2 ^ 63)
    (requests : UInt8) :
    lcd.advance (first + second) requests =
      (lcd.advance first requests).1.advance second
        (lcd.advance first requests).2 := by
  let portion := lcd.lineCountdown.advance cyclesPerLine first
  let rest := portion.1.advance cyclesPerLine second
  have rewound :=
    nextLines_with portion.2
      { lcd with lineCountdown := portion.1 } requests rest.1
  unfold advance
  dsimp only
  rw [Countdown.advance_add (by decide) standing bounded, nextLines_add,
    nextLines_lineCountdown]
  exact congrArg
    (fun moved : Lcd × UInt8 => nextLines rest.2 moved.1 moved.2) rewound

end Lcd

end Dmg
