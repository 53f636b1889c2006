import Dmg.Proofs.ClockFrame
import Dmg.Proofs.Expiries
import Dmg.Proofs.Requests

namespace Dmg.Timer

/-!
# The timer in closed form

Over any span of time the counter is incremented once for every expiry of its countdown.
From the number of increments follow, without any loop, where the counter stands and
whether it has overflowed: the first overflow comes at 256, and from there the counter
goes round from the modulo.  The divider goes round all its values at its own period,
whether or not the counter is running.
-/

/-- Cycles between two increments of the counter, as a number. -/
def periodLength (timer : Timer) : Nat :=
  timer.period.toInt.toNat

/-- The selected period is one of four. -/
theorem periodLength_mem (timer : Timer) :
    timer.periodLength ∈ [16, 64, 256, 1024] := by
  simp only [periodLength, period]
  split
  · decide
  · split
    · decide
    · split <;> decide

theorem toInt_period (timer : Timer) :
    timer.period.toInt = timer.periodLength :=
  (Int.toNat_of_nonneg
    (Int.le_of_lt (Int64.lt_iff_toInt_lt.mp timer.period_pos))).symm

theorem periodLength_bounds (timer : Timer) :
    0 < timer.periodLength ∧ timer.periodLength ≤ 1024 := by
  have selected := timer.periodLength_mem
  simp only [List.mem_cons, List.not_mem_nil, or_false] at selected
  omega

/--
Where the counter stands after so many increments.  From the first overflow on it goes
round the values from the modulo to 255.
-/
def counterAfter (counter modulo increments : Nat) : Nat :=
  if increments < 256 - counter then
    counter + increments
  else
    modulo + (increments - (256 - counter)) % (256 - modulo)

/-- A counter that has just been reloaded goes round from the start. -/
theorem counterAfter_modulo (modulo increments : Nat) :
    counterAfter modulo modulo increments =
      modulo + increments % (256 - modulo) := by
  unfold counterAfter
  split
  case isTrue within => rw [Nat.mod_eq_of_lt within]
  case isFalse beyond =>
    rw [← Nat.mod_eq_sub_mod (Nat.le_of_not_lt beyond)]

/-- An increment that does not overflow is the first of those that follow. -/
theorem counterAfter_succ
    {counter : Nat}
    (notLast : counter < 255)
    (modulo increments : Nat) :
    counterAfter (counter + 1) modulo increments =
      counterAfter counter modulo (increments + 1) := by
  unfold counterAfter
  by_cases within : increments < 256 - (counter + 1)
  · rw [if_pos within, if_pos (by omega)]
    omega
  · have sameExcess :
        increments - (256 - (counter + 1)) =
          increments + 1 - (256 - counter) := by
      omega
    rw [if_neg within, if_neg (by omega), sameExcess]

/-- An overflow is an increment that leads to the modulo. -/
theorem counterAfter_last (modulo increments : Nat) :
    counterAfter modulo modulo increments =
      counterAfter 255 modulo (increments + 1) := by
  rw [counterAfter_modulo, counterAfter, if_neg (by omega)]
  rfl

variable
  {timer : Timer}
  {elapsed : UInt64}

/-- Increments overflow the counter if there are enough of them to reach 256. -/
theorem ticks_eq
    (count : Nat)
    (timer : Timer)
    (requests : UInt8) :
    (ticks count timer requests).1.counter.toNat =
        counterAfter timer.counter.toNat timer.modulo.toNat count ∧
      (ticks count timer requests).2 =
        if count < 256 - timer.counter.toNat then
          requests
        else
          Interrupt.timer.request requests := by
  induction count generalizing timer requests with
  | zero =>
      have isByte := timer.counter.toNat_lt
      have untouched : 0 < 256 - timer.counter.toNat := by
        omega
      rw [counterAfter, if_pos untouched, if_pos untouched]
      exact ⟨rfl, rfl⟩
  | succ count inductionHypothesis =>
      have isByte := timer.counter.toNat_lt
      obtain ⟨counter, raised⟩ :=
        inductionHypothesis (timer.tick requests).1
          (timer.tick requests).2
      rw [ticks, counter, raised]
      unfold tick
      split
      case isTrue last =>
        have isLast : timer.counter.toNat = 255 := by
          rw [last]
          rfl
        rw [isLast]
        -- The request has been made here, so those of later overflows change nothing.
        refine ⟨counterAfter_last _ count, ?_⟩
        rw [Interrupt.request_request, ite_self, if_neg (by omega)]
      case isFalse notLast =>
        have isBelow : timer.counter.toNat < 255 := by
          have notEqual : timer.counter.toNat ≠ 255 :=
            fun same => notLast (UInt8.toNat_inj.mp same)
          omega
        have next :
            (timer.counter + 1).toNat = timer.counter.toNat + 1 := by
          rw [UInt8.toNat_add, UInt8.toNat_one]
          omega
        dsimp only
        rw [next]
        refine ⟨counterAfter_succ isBelow _ count, ?_⟩
        have sameLimit :
            count < 256 - (timer.counter.toNat + 1) ↔
              count + 1 < 256 - timer.counter.toNat := by
          omega
        simp only [sameLimit]

/-- While the counter runs, time increments it once for every expiry of its countdown. -/
theorem advance_of_running
    (running : timer.enabled = true)
    (elapsed : UInt64)
    (requests : UInt8) :
    let advanced := timer.counterCountdown.advance timer.period elapsed
    timer.advance elapsed requests =
      ticks advanced.2
        { timer.advanceDivider elapsed with
          counterCountdown := advanced.1 }
        requests :=
  if_pos running

/-- While the counter stands still, time moves the divider alone. -/
theorem advance_of_stopped
    (stopped : timer.enabled = false)
    (elapsed : UInt64)
    (requests : UInt8) :
    timer.advance elapsed requests =
      (timer.advanceDivider elapsed, requests) :=
  if_neg (Bool.eq_false_iff.mp stopped)

/--
The states that stores into the registers and time can bring a timer to, each time by
less than half the range of the clock.
-/
inductive Reachable : Timer → Prop where
  | powerOn :
      Reachable powerOn
  | write
      {timer : Timer}
      (address : UInt16)
      (value : UInt8) :
      Reachable timer →
      Reachable (timer.write address value)
  | advance
      {timer : Timer}
      {elapsed : UInt64}
      (requests : UInt8) :
      Reachable timer →
      elapsed.toNat < 2 ^ 63 →
      Reachable (timer.advance elapsed requests).1

/--
The divider's countdown lies within its period, and the counter's within the longest that
can be selected; it may stand at zero.
-/
structure Ranged (timer : Timer) : Prop where
  dividerBegun : 1 ≤ timer.dividerCountdown.left.toInt
  dividerAtMost : timer.dividerCountdown.left.toInt ≤ 256
  counterStanding : 0 ≤ timer.counterCountdown.left.toInt
  counterAtMost : timer.counterCountdown.left.toInt ≤ 1024

namespace Ranged

theorem powerOn : Timer.powerOn.Ranged where
  dividerBegun := by decide
  dividerAtMost := by decide
  counterStanding := by decide
  counterAtMost := by decide

/-- A store into a register touches no countdown. -/
theorem write
    (ranged : timer.Ranged)
    (address : UInt16)
    (value : UInt8) :
    (timer.write address value).Ranged := by
  unfold Timer.write
  cases Register.ofAddress? address with
  | none => exact ranged
  | some register =>
      cases register <;>
        exact
          ⟨ranged.dividerBegun, ranged.dividerAtMost,
            ranged.counterStanding, ranged.counterAtMost⟩

variable
  (ranged : timer.Ranged)
  (bounded : elapsed.toNat < 2 ^ 63)
include ranged bounded

/-- The divider counts the periods that are begun, whether or not the counter runs. -/
theorem divider (requests : UInt8) :
    let past := 256 - timer.dividerCountdown.cycles + elapsed.toNat
    let later := (timer.advance elapsed requests).1
    later.dividerCountdown.left.toInt = 256 - (past % 256 : Nat) ∧
      later.divider.toNat = (timer.divider.toNat + past / 256) % 256 := by
  intro past later
  obtain ⟨countdown, counted⟩ :=
    timer.advance_divider elapsed requests
  obtain ⟨wound, expiries⟩ :=
    Countdown.advance_within
      (show dividerPeriod.toInt = (256 : Nat) from rfl)
      ranged.dividerBegun ranged.dividerAtMost bounded
  rw [expiries] at counted
  exact ⟨(congrArg (·.left.toInt) countdown).trans wound, counted⟩

/-- What is left of the counter's countdown, and how often it expires while it runs. -/
theorem counter
    (running : timer.enabled = true)
    (requests : UInt8) :
    (timer.advance elapsed requests).1.counterCountdown.left.toInt =
        Countdown.leftAfter timer.periodLength
          timer.counterCountdown.cycles elapsed.toNat ∧
      (timer.counterCountdown.advance timer.period elapsed).2 =
        Countdown.expiriesWithin timer.periodLength
          timer.counterCountdown.cycles elapsed.toNat := by
  rw [advance_of_running running, (ticks_frame _ _ _).2.2.1]
  exact Countdown.advance_eq_leftAfter timer.toInt_period
    timer.periodLength_bounds.1 ranged.counterStanding bounded

/-- The counter's countdown stays within the longest period, whichever is selected. -/
theorem counterCountdown (requests : UInt8) :
    let later := (timer.advance elapsed requests).1
    0 ≤ later.counterCountdown.left.toInt ∧
      later.counterCountdown.left.toInt ≤ 1024 := by
  intro later
  cases running : timer.enabled with
  | true =>
      have counterLeft :
          later.counterCountdown.left.toInt =
            Countdown.leftAfter timer.periodLength
              timer.counterCountdown.cycles elapsed.toNat :=
        (ranged.counter bounded running requests).1
      have atMost :=
        Countdown.leftAfter_le timer.periodLength
          timer.counterCountdown.cycles elapsed.toNat
      have isLeft := Countdown.left_eq_cycles ranged.counterStanding
      have before := ranged.counterAtMost
      have longest := timer.periodLength_bounds.2
      omega
  | false =>
      have unmoved : later.counterCountdown = timer.counterCountdown :=
        congrArg (·.1.counterCountdown)
          (advance_of_stopped running elapsed requests)
      rw [unmoved]
      exact ⟨ranged.counterStanding, ranged.counterAtMost⟩

theorem advance (requests : UInt8) :
    (timer.advance elapsed requests).1.Ranged := by
  obtain ⟨dividerLeft, -⟩ := ranged.divider bounded requests
  obtain ⟨standing, atMost⟩ := ranged.counterCountdown bounded requests
  exact
    { dividerBegun := by omega
      dividerAtMost := by omega
      counterStanding := standing
      counterAtMost := atMost }

end Ranged

/-- The countdowns of a reachable timer are in range. -/
theorem Reachable.ranged (reachable : timer.Reachable) : timer.Ranged := by
  induction reachable with
  | powerOn => exact .powerOn
  | write address value _ inductionHypothesis =>
      exact inductionHypothesis.write address value
  | advance requests _ bounded inductionHypothesis =>
      exact inductionHypothesis.advance bounded requests

/--
Over any span of time a reachable timer does what can be computed without a loop.  While
it is enabled, the counter is incremented once when what is left of its countdown has
passed and once for every period from then on; below 256 it holds the sum, and otherwise
it has gone round from the modulo and the timer is requested.  While it is not enabled
the counter stands still.  The divider counts its periods in either case, and nothing
else changes.
-/
theorem Reachable.advance_in_closed_form
    (reachable : timer.Reachable)
    (bounded : elapsed.toNat < 2 ^ 63)
    (requests : UInt8) :
    let left := timer.counterCountdown.cycles
    let increments :=
      Countdown.expiriesWithin timer.periodLength left elapsed.toNat
    let past := 256 - timer.dividerCountdown.cycles + elapsed.toNat
    let later := timer.advance elapsed requests
    timer.Ranged ∧
      later.1.Ranged ∧
      (timer.enabled = true →
        (timer.counterCountdown.advance timer.period elapsed).2 =
            increments ∧
          later.1.counter.toNat =
            counterAfter timer.counter.toNat timer.modulo.toNat
              increments ∧
          later.2 =
            (if increments < 256 - timer.counter.toNat then
              requests
            else
              Interrupt.timer.request requests) ∧
          later.1.counterCountdown.cycles =
            Countdown.leftAfter timer.periodLength left elapsed.toNat) ∧
      (timer.enabled = false →
        later.1.counter = timer.counter ∧
          later.1.counterCountdown = timer.counterCountdown ∧
          later.2 = requests) ∧
      later.1.divider.toNat =
        (timer.divider.toNat + past / 256) % 256 ∧
      later.1.dividerCountdown.cycles = 256 - past % 256 ∧
      later.1.modulo = timer.modulo ∧
      later.1.control = timer.control ∧
      later.2 &&& ~~~Interrupt.timer.bit =
        requests &&& ~~~Interrupt.timer.bit := by
  intro left increments past later
  have ranged := reachable.ranged
  obtain ⟨dividerLeft, divider⟩ := ranged.divider bounded requests
  obtain ⟨sameModulo, sameControl⟩ :=
    timer.advance_settings elapsed requests
  refine
    ⟨ranged, ranged.advance bounded requests, ?_, ?_, divider, ?_,
      sameModulo, sameControl, ?_⟩
  · intro running
    obtain ⟨counterLeft, counted⟩ :=
      ranged.counter bounded running requests
    obtain ⟨counter, raised⟩ :=
      ticks_eq (timer.counterCountdown.advance timer.period elapsed).2
        { timer.advanceDivider elapsed with
          counterCountdown :=
            (timer.counterCountdown.advance timer.period elapsed).1 }
        requests
    rw [← advance_of_running running, counted] at counter raised
    exact
      ⟨counted, counter, raised,
        (congrArg Int.toNat counterLeft).trans (Int.toNat_natCast _)⟩
  · intro stopped
    have advanced := advance_of_stopped stopped elapsed requests
    exact
      ⟨congrArg (·.1.counter) advanced,
        congrArg (·.1.counterCountdown) advanced,
        congrArg (·.2) advanced⟩
  · have remainder := Nat.mod_lt past (show 0 < 256 by decide)
    exact (congrArg Int.toNat dividerLeft).trans (by omega)
  · cases running : timer.enabled with
    | true =>
        exact
          (congrArg (·.2 &&& ~~~Interrupt.timer.bit)
            (advance_of_running running elapsed requests)).trans
            (ticks_and (by decide) _ _ requests)
    | false =>
        exact
          congrArg (·.2 &&& ~~~Interrupt.timer.bit)
            (advance_of_stopped running elapsed requests)

/-- A timer that has run at the longest period and is then given the shortest one. -/
def shortened : Timer :=
  ((powerOn.write 0xFF07 0x04).advance 4 0).1.write 0xFF07 0x05

theorem Reachable.shortened : Timer.shortened.Reachable :=
  .write _ _ (.advance 0 (.write _ _ .powerOn) (by decide))

/-- What is left of the longest period is still left in the shortest one. -/
theorem cycles_shortened : shortened.counterCountdown.cycles = 1020 := by
  have started : (powerOn.write 0xFF07 0x04).Ranged :=
    Ranged.powerOn.write _ _
  have left :=
    (started.counter (show (4 : UInt64).toNat < 2 ^ 63 by decide) rfl 0).1
  exact congrArg Int.toNat left

/--
Three increments after 1020, 1036 and 1052 cycles take a counter from 255 to the modulo
254, to 255 and to 254 again.
-/
theorem advance_in_closed_form_shortened :
    let timer := (shortened.write 0xFF06 0xFE).write 0xFF05 0xFF
    timer.Reachable ∧
      timer.enabled = true ∧
      (timer.advance 1060 0).1.counter.toNat = 254 ∧
      (timer.advance 1060 0).2 = 0x04 ∧
      (timer.advance 1060 0).1.counterCountdown.cycles = 8 := by
  intro timer
  have reachable : timer.Reachable :=
    .write _ _ (.write _ _ .shortened)
  have left : timer.counterCountdown.cycles = 1020 := cycles_shortened
  obtain ⟨-, -, whileRunning, -⟩ :=
    reachable.advance_in_closed_form
      (show (1060 : UInt64).toNat < 2 ^ 63 by decide) 0
  have running : timer.enabled = true := by decide
  obtain ⟨-, counter, raised, remaining⟩ := whileRunning running
  rw [left] at counter raised remaining
  exact
    ⟨reachable, running, counter.trans (by decide), raised,
      remaining.trans (by decide)⟩

end Dmg.Timer
