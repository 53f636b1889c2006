import Dmg.Proofs.Advance

namespace Dmg.Peripherals

/-!
# The clock of the register page

The page catches up with a cycle count.  Catching up with a later count after an
earlier one is the same as catching up with the later one at once, in every register
and every countdown; hence no sequence of counts that does not go back can be told
from its last count.
-/

/-- No countdown of the page has run below zero. -/
structure Standing (peripherals : Peripherals) : Prop where
  timer : peripherals.timer.Standing
  lcd : peripherals.lcd.Standing

/-- The countdowns stand at power-on; that of the counter stands at zero. -/
theorem Standing.powerOn : powerOn.Standing where
  timer := ⟨by decide, by decide⟩
  lcd := by
    unfold Lcd.Standing
    decide

/-- A store into a register touches no countdown. -/
theorem Standing.write
    {peripherals : Peripherals}
    (standing : peripherals.Standing)
    (address : UInt16)
    (value : UInt8) :
    (peripherals.write address value).Standing := by
  unfold Peripherals.write
  split
  next register _ =>
    cases register with
    | timer timerRegister =>
        refine ⟨?_, standing.lcd⟩
        cases timerRegister <;>
          exact ⟨standing.timer.divider, standing.timer.counter⟩
    | lcd lcdRegister =>
        refine ⟨standing.timer, ?_⟩
        cases lcdRegister <;> exact standing.lcd
    | _ => exact ⟨standing.timer, standing.lcd⟩
  next => exact standing

/-- Catching up over less than half the range of the clock leaves the countdowns standing. -/
theorem Standing.advanceTo
    {peripherals : Peripherals}
    (standing : peripherals.Standing)
    {cycles : UInt64}
    (bounded : (peripherals.elapsedUntil cycles).toNat < 2 ^ 63) :
    (peripherals.advanceTo cycles).Standing where
  timer := standing.timer.advance bounded _
  lcd := standing.lcd.advance bounded _

theorem elapsedUntil_of_le
    {peripherals : Peripherals}
    {cycles : UInt64}
    (ahead : peripherals.clock ≤ cycles) :
    peripherals.elapsedUntil cycles = cycles - peripherals.clock :=
  if_pos ahead

@[simp]
theorem advanceTo_clock
    (peripherals : Peripherals)
    (cycles : UInt64) :
    (peripherals.advanceTo cycles).clock = cycles :=
  rfl

/--
Catching up, with the time as it elapses: the display and the timer go on from
cleared requests, and what they raise is added to those of the page.
-/
theorem advanceTo_eq
    {peripherals : Peripherals}
    {cycles elapsed : UInt64}
    (elapses : peripherals.elapsedUntil cycles = elapsed) :
    peripherals.advanceTo cycles =
      { peripherals with
        lcd := (peripherals.lcd.advance elapsed 0).1
        timer := (peripherals.timer.advance elapsed 0).1
        requests :=
          peripherals.requests |||
            (peripherals.lcd.advance elapsed 0).2 |||
            (peripherals.timer.advance elapsed 0).2
        clock := cycles } := by
  unfold Peripherals.advanceTo
  dsimp only
  rw [elapses, Lcd.advance_requests, Timer.advance_requests]

/-- Catching up with two counts in order is catching up with the later one. -/
theorem advanceTo_advanceTo
    {peripherals : Peripherals}
    {first second : UInt64}
    (standing : peripherals.Standing)
    (firstAhead : peripherals.clock ≤ first)
    (secondAhead : first ≤ second)
    (bounded : (second - peripherals.clock).toNat < 2 ^ 63) :
    (peripherals.advanceTo first).advanceTo second =
      peripherals.advanceTo second := by
  have wholeAhead := UInt64.le_trans firstAhead secondAhead
  have toFirst := UInt64.toNat_sub_of_le _ _ firstAhead
  have toSecond := UInt64.toNat_sub_of_le _ _ secondAhead
  have toWhole := UInt64.toNat_sub_of_le _ _ wholeAhead
  have firstOrder := UInt64.le_iff_toNat_le.mp firstAhead
  have secondOrder := UInt64.le_iff_toNat_le.mp secondAhead
  have portionsBounded :
      (first - peripherals.clock).toNat + (second - first).toNat <
        2 ^ 63 := by
    omega
  have portions :
      second - peripherals.clock =
        (first - peripherals.clock) + (second - first) := by
    apply UInt64.toNat_inj.mp
    rw [UInt64.toNat_add, Nat.mod_eq_of_lt (by omega)]
    omega
  rw [advanceTo_eq (elapsedUntil_of_le wholeAhead), portions,
    Lcd.advance_add standing.lcd portionsBounded,
    Timer.advance_add standing.timer portionsBounded,
    advanceTo_eq (elapsedUntil_of_le firstAhead),
    advanceTo_eq (elapsedUntil_of_le secondAhead),
    Lcd.advance_requests _ _ (peripherals.lcd.advance _ 0).2,
    Timer.advance_requests _ _ (peripherals.timer.advance _ 0).2]
  dsimp only
  -- What is left is the order in which the two units added their requests.
  congr 1
  ac_rfl

/--
The states of the page that stores, presses of buttons, requests and catching up can
reach, each time by less than half the range of the clock.
-/
inductive Reachable : Peripherals → Prop where
  | powerOn :
      Reachable powerOn
  | write
      {peripherals : Peripherals}
      (address : UInt16)
      (value : UInt8) :
      Reachable peripherals →
      Reachable (peripherals.write address value)
  | press
      {peripherals : Peripherals}
      (pressed : UInt8) :
      Reachable peripherals →
      Reachable (peripherals.press pressed)
  | request
      {peripherals : Peripherals}
      (source : Interrupt) :
      Reachable peripherals →
      Reachable (peripherals.request source)
  | advanceTo
      {peripherals : Peripherals}
      {cycles : UInt64} :
      Reachable peripherals →
      (peripherals.elapsedUntil cycles).toNat < 2 ^ 63 →
      Reachable (peripherals.advanceTo cycles)

/-- No countdown of a reachable page has run below zero. -/
theorem Reachable.standing
    {peripherals : Peripherals}
    (reachable : Reachable peripherals) :
    peripherals.Standing := by
  induction reachable with
  | powerOn =>
      exact .powerOn
  | write address value _ inductionHypothesis =>
      exact inductionHypothesis.write address value
  | press pressed _ inductionHypothesis =>
      exact ⟨inductionHypothesis.timer, inductionHypothesis.lcd⟩
  | request source _ inductionHypothesis =>
      exact ⟨inductionHypothesis.timer, inductionHypothesis.lcd⟩
  | advanceTo _ bounded inductionHypothesis =>
      exact inductionHypothesis.advanceTo bounded

/-- Catch up with several counts, one after the other. -/
def advanceThrough
    (peripherals : Peripherals)
    (counts : List UInt64) :
    Peripherals :=
  counts.foldl (fun current cycles => current.advanceTo cycles) peripherals

/-- From standing countdowns, only the last of a sequence of counts in order matters. -/
theorem Standing.advanceThrough_eq
    {peripherals : Peripherals}
    (standing : peripherals.Standing)
    {counts : List UInt64}
    (nonempty : counts ≠ [])
    (ordered : (peripherals.clock :: counts).Pairwise (· ≤ ·))
    (bounded :
      (counts.getLast nonempty - peripherals.clock).toNat < 2 ^ 63) :
    peripherals.advanceThrough counts =
      peripherals.advanceTo (counts.getLast nonempty) := by
  induction counts generalizing peripherals with
  | nil =>
      exact (nonempty rfl).elim
  | cons first rest inductionHypothesis =>
      by_cases onlyOne : rest = []
      · subst onlyOne
        rfl
      · have lastOfRest :
            (first :: rest).getLast nonempty = rest.getLast onlyOne :=
          List.getLast_cons onlyOne
        have splitOrder := List.pairwise_cons.mp ordered
        have firstAhead : peripherals.clock ≤ first :=
          splitOrder.1 first (by simp)
        have lastAhead : first ≤ rest.getLast onlyOne :=
          (List.pairwise_cons.mp splitOrder.2).1 _
            (List.getLast_mem onlyOne)
        rw [lastOfRest] at bounded ⊢
        have toFirst := UInt64.toNat_sub_of_le _ _ firstAhead
        have fromFirst := UInt64.toNat_sub_of_le _ _ lastAhead
        have toLast :=
          UInt64.toNat_sub_of_le _ _
            (UInt64.le_trans firstAhead lastAhead)
        have firstOrder := UInt64.le_iff_toNat_le.mp firstAhead
        have lastOrder := UInt64.le_iff_toNat_le.mp lastAhead
        have firstBounded :
            (peripherals.elapsedUntil first).toNat < 2 ^ 63 := by
          rw [elapsedUntil_of_le firstAhead]
          omega
        -- After the first count the rest come to their last one, and of the two counts
        -- that are left only the later matters.
        have fromRest :=
          inductionHypothesis (standing.advanceTo firstBounded)
            onlyOne splitOrder.2
            (by
              rw [advanceTo_clock]
              omega)
        exact fromRest.trans
          (advanceTo_advanceTo standing firstAhead lastAhead bounded)

/--
Catching up with a sequence of counts that does not go back, in portions of any
number and size, leaves a reachable page in every register and every countdown as
catching up with the last count at once does.
-/
theorem advanceThrough_eq_advanceTo_getLast
    {peripherals : Peripherals}
    (reachable : Reachable peripherals)
    {counts : List UInt64}
    (nonempty : counts ≠ [])
    (ordered : (peripherals.clock :: counts).Pairwise (· ≤ ·))
    (bounded :
      (counts.getLast nonempty - peripherals.clock).toNat < 2 ^ 63) :
    peripherals.advanceThrough counts =
      peripherals.advanceTo (counts.getLast nonempty) :=
  reachable.standing.advanceThrough_eq nonempty ordered bounded

/--
The counter is switched on while its countdown still stands at zero, so that it
counts when no time at all has passed; repeated counts do not make it count again.
-/
theorem advanceThrough_repeated_counts :
    Reachable ((powerOn.write 0xFF07 0x05).write 0xFF06 0xF0) ∧
      [0, 0, 15, 16, 16, 5000].Pairwise (fun (first second : UInt64) => first ≤ second) ∧
      ((powerOn.write 0xFF07 0x05).write 0xFF06 0xF0).advanceThrough
          [0, 0, 15, 16, 16, 5000] =
        ((powerOn.write 0xFF07 0x05).write 0xFF06 0xF0).advanceTo 5000 := by
  have reachable :
      Reachable ((powerOn.write 0xFF07 0x05).write 0xFF06 0xF0) :=
    .write _ _ (.write _ _ .powerOn)
  exact ⟨reachable, by decide,
    advanceThrough_eq_advanceTo_getLast reachable
      (by decide) (by decide) (by decide)⟩

end Dmg.Peripherals
