import Dmg.Proofs.CounterSum
import Mathlib.Algebra.GroupWithZero.Nat
import Mathlib.Data.UInt

namespace Dmg.Timer

/-!
# The rate of the counter

As long as no register is written, the counter is incremented at the rate that the control
register selects, give or take one increment, provided that its countdown has at most one
period left.  A store into the control register does not touch the countdown: where it
selects a period that is shorter than what is left of a longer one, the counter stands
still for the rest of that, and only then takes up its rate.
-/

/-- All the time of several portions. -/
def totalTime (portions : List UInt64) : Nat :=
  (portions.map UInt64.toNat).sum

@[simp]
theorem totalTime_cons
    (elapsed : UInt64)
    (rest : List UInt64) :
    totalTime (elapsed :: rest) = elapsed.toNat + totalTime rest :=
  List.sum_cons

/-- Let time pass in portions, with no register written in between. -/
def advanceThrough :
    List UInt64 →
    Timer →
    UInt8 →
    Timer × UInt8
  | [], timer, requests => (timer, requests)
  | elapsed :: rest, timer, requests =>
      let advanced := timer.advance elapsed requests
      advanceThrough rest advanced.1 advanced.2

/-- How often the counter is incremented while time passes. -/
def incrementsIn
    (elapsed : UInt64)
    (timer : Timer) :
    Nat :=
  if timer.enabled then
    (timer.counterCountdown.advance timer.period elapsed).2
  else
    0

/-- How often the counter is incremented while time passes in portions. -/
def incrementsThrough :
    List UInt64 →
    Timer →
    Nat
  | [], _ => 0
  | elapsed :: rest, timer =>
      timer.incrementsIn elapsed +
        incrementsThrough rest (timer.advance elapsed 0).1

/--
Over these portions of time the counter is incremented once for every whole period, and
at most once more.
-/
def KeepsRate
    (timer : Timer)
    (portions : List UInt64) :
    Prop :=
  incrementsThrough portions timer =
      totalTime portions / timer.periodLength ∨
    incrementsThrough portions timer =
      totalTime portions / timer.periodLength + 1

variable
  {timer : Timer}
  {portions : List UInt64}

/-- The sum of portions of time that is not too long does not wrap around. -/
theorem toNat_sum
    (bounded : totalTime portions < 2 ^ 63) :
    portions.sum.toNat = totalTime portions := by
  induction portions with
  | nil => rfl
  | cons elapsed rest inductionHypothesis =>
      rw [totalTime_cons] at bounded ⊢
      rw [List.sum_cons, UInt64.toNat_add, inductionHypothesis (by omega),
        Nat.mod_eq_of_lt (by omega)]

theorem toNat_sum_lt
    (bounded : totalTime portions < 2 ^ 63) :
    portions.sum.toNat < 2 ^ 63 :=
  (toNat_sum bounded).symm ▸ bounded

/-- Time leaves the control register, and so whether and how fast the counter runs. -/
theorem advance_running
    (elapsed : UInt64)
    (timer : Timer)
    (requests : UInt8) :
    (timer.advance elapsed requests).1.enabled = timer.enabled ∧
      (timer.advance elapsed requests).1.period = timer.period := by
  have sameControl := (timer.advance_settings elapsed requests).2
  unfold enabled period
  rw [sameControl]
  exact ⟨rfl, rfl⟩

/-- Increments over two portions of time add up. -/
theorem incrementsIn_add
    {first second : UInt64}
    (standing : timer.Standing)
    (bounded : first.toNat + second.toNat < 2 ^ 63) :
    timer.incrementsIn (first + second) =
      timer.incrementsIn first +
        (timer.advance first 0).1.incrementsIn second := by
  obtain ⟨sameEnabled, samePeriod⟩ := advance_running first timer 0
  unfold incrementsIn
  rw [sameEnabled, samePeriod]
  split
  case isTrue running =>
    rw [advance_of_running running, (ticks_frame _ _ _).2.2.1,
      Countdown.advance_add timer.period_pos standing.counter bounded]
  case isFalse => rfl

/-- Time in portions is all of it at once. -/
theorem advanceThrough_eq
    (standing : timer.Standing)
    (nonempty : portions ≠ [])
    (bounded : totalTime portions < 2 ^ 63)
    (requests : UInt8) :
    advanceThrough portions timer requests =
        timer.advance portions.sum requests ∧
      incrementsThrough portions timer =
        timer.incrementsIn portions.sum := by
  induction portions generalizing timer requests with
  | nil => exact (nonempty rfl).elim
  | cons elapsed rest inductionHypothesis =>
      rw [totalTime_cons] at bounded
      have elapsedBounded : elapsed.toNat < 2 ^ 63 := by
        omega
      have restBounded : totalTime rest < 2 ^ 63 := by
        omega
      by_cases last : rest = []
      · subst last
        rw [List.sum_cons, List.sum_nil, UInt64.add_zero]
        exact ⟨rfl, rfl⟩
      · have sumBounded :
            elapsed.toNat + rest.sum.toNat < 2 ^ 63 := by
          rw [toNat_sum restBounded]
          exact bounded
        rw [List.sum_cons, advance_add standing sumBounded,
          incrementsIn_add standing sumBounded]
        constructor
        · exact
            (inductionHypothesis (standing.advance elapsedBounded requests)
              last restBounded _).1
        · exact congrArg (timer.incrementsIn elapsed + ·)
            (inductionHypothesis (standing.advance elapsedBounded 0)
              last restBounded 0).2

/-- A timer whose countdowns are in range has none that has run below zero. -/
theorem Ranged.standing (ranged : timer.Ranged) : timer.Standing where
  divider := Int.le_trans (by decide) ranged.dividerBegun
  counter := ranged.counterStanding

section Running

variable
  (ranged : timer.Ranged)
  (running : timer.enabled = true)
  (nonempty : portions ≠ [])
  (bounded : totalTime portions < 2 ^ 63)
include ranged running nonempty bounded

/-- While the counter runs, its increments are the expiries of its countdown. -/
theorem incrementsThrough_eq :
    incrementsThrough portions timer =
      Countdown.expiriesWithin timer.periodLength
        timer.counterCountdown.cycles (totalTime portions) := by
  rw [(advanceThrough_eq ranged.standing nonempty bounded 0).2,
    incrementsIn, if_pos running,
    (ranged.counter (toNat_sum_lt bounded) running 0).2,
    toNat_sum bounded]

/-- The counter has been moved by its increments, and its countdown by the time. -/
theorem advanceThrough_counter (requests : UInt8) :
    let later := (advanceThrough portions timer requests).1
    later.counter.toNat =
        counterAfter timer.counter.toNat timer.modulo.toNat
          (incrementsThrough portions timer) ∧
      later.counterCountdown.cycles =
        Countdown.leftAfter timer.periodLength
          timer.counterCountdown.cycles (totalTime portions) := by
  intro later
  obtain ⟨atOnce, increments⟩ :=
    advanceThrough_eq ranged.standing nonempty bounded requests
  have isLater : later = (timer.advance portions.sum requests).1 :=
    congrArg Prod.fst atOnce
  rw [isLater, increments, incrementsIn, if_pos running]
  constructor
  · rw [advance_of_running running]
    exact (ticks_eq _ _ requests).1
  · have left :=
      (ranged.counter (toNat_sum_lt bounded) running requests).1
    rw [toNat_sum bounded] at left
    exact (congrArg Int.toNat left).trans (Int.toNat_natCast _)

end Running

/--
The rate of a running counter is kept over all portions of time exactly if its countdown
has at most a period left, and exactly then there is an increment within the first
period.  In any case the counter is incremented when what is left of the countdown has
passed, and once every period from then on; the countdown then has at most a period left.
So a store that selects a shorter period takes effect at the end of the longer one.
-/
theorem Reachable.rate_kept_iff
    (reachable : timer.Reachable)
    (running : timer.enabled = true) :
    let left := timer.counterCountdown.cycles
    let period := timer.periodLength
    ((∀ portions, totalTime portions < 2 ^ 63 → timer.KeepsRate portions) ↔
        left ≤ period) ∧
      (∀ portions,
        portions ≠ [] →
          totalTime portions = period →
          (0 < incrementsThrough portions timer ↔ left ≤ period)) ∧
      ∀ portions requests,
        portions ≠ [] →
          totalTime portions < 2 ^ 63 →
          let later := (advanceThrough portions timer requests).1
          incrementsThrough portions timer =
              Countdown.expiriesWithin period left
                (totalTime portions) ∧
            later.counter.toNat =
              counterAfter timer.counter.toNat timer.modulo.toNat
                (incrementsThrough portions timer) ∧
            (left ≤ totalTime portions →
              later.counterCountdown.cycles ≤ period) := by
  intro left period
  have ranged := reachable.ranged
  obtain ⟨positive, atMost⟩ := timer.periodLength_bounds
  have overPeriod :
      ∀ portions,
        portions ≠ [] →
          totalTime portions = period →
          (0 < incrementsThrough portions timer ↔ left ≤ period) := by
    intro portions nonempty isPeriod
    have bounded : totalTime portions < 2 ^ 63 := by
      omega
    rw [incrementsThrough_eq ranged running nonempty bounded, isPeriod]
    exact Countdown.expiriesWithin_pos_iff
  refine ⟨⟨?_, ?_⟩, overPeriod, ?_⟩
  · intro keeps
    -- One whole period at once tells whether the first increment comes in time.
    let once : List UInt64 := [.ofNat period]
    have isPeriod : totalTime once = period := by
      have fits : period < 2 ^ 64 := by
        omega
      exact (Nat.add_zero _).trans (UInt64.toNat_ofNat_of_lt' fits)
    have kept := keeps once (by omega)
    rw [KeepsRate, isPeriod, Nat.div_self positive] at kept
    exact (overPeriod once (List.cons_ne_nil _ _) isPeriod).mp (by omega)
  · intro within portions bounded
    by_cases empty : portions = []
    · subst empty
      exact .inl (Nat.zero_div _).symm
    · rw [KeepsRate, incrementsThrough_eq ranged running empty bounded]
      exact Countdown.expiriesWithin_of_le positive within _
  · intro portions requests nonempty bounded later
    obtain ⟨counter, remaining⟩ :=
      advanceThrough_counter ranged running nonempty bounded requests
    refine
      ⟨incrementsThrough_eq ranged running nonempty bounded, counter, ?_⟩
    intro expired
    rw [remaining]
    exact Countdown.leftAfter_le_of_le expired

/-- The counter stands still for 1020 cycles, and then takes up its rate. -/
theorem rate_kept_iff_shortened :
    shortened.Reachable ∧
      shortened.enabled = true ∧
      ¬ (∀ portions,
        totalTime portions < 2 ^ 63 → shortened.KeepsRate portions) ∧
      incrementsThrough [1000, 19] shortened = 0 ∧
      incrementsThrough [1000, 19, 1, 16] shortened = 2 := by
  have running : shortened.enabled = true := by decide
  obtain ⟨kept, -, counted⟩ :=
    Reachable.shortened.rate_kept_iff running
  rw [cycles_shortened] at kept counted
  refine ⟨.shortened, running, ?_, ?_, ?_⟩
  · rw [kept]
    decide
  · exact
      (counted [1000, 19] 0 (by decide) (by decide)).1.trans (by decide)
  · exact
      (counted [1000, 19, 1, 16] 0 (by decide) (by decide)).1.trans
        (by decide)

/--
A counter that has been given a period of sixteen cycles is not incremented once within
them, if the control register was written in the middle of a longer period.
-/
theorem no_increment_within_shortened_period :
    shortened.Reachable ∧
      shortened.enabled = true ∧
      shortened.periodLength = 16 ∧
      shortened =
        ((powerOn.write 0xFF07 0x04).advance 4 0).1.write 0xFF07 0x05 ∧
      totalTime [16] = 16 ∧
      incrementsThrough [16] shortened = 0 ∧
      (shortened.advance 16 0).1.counter = shortened.counter ∧
      ¬ shortened.KeepsRate [16] := by
  have ranged := Reachable.shortened.ranged
  have running : shortened.enabled = true := by decide
  have bounded : totalTime [16] < 2 ^ 63 := by decide
  have increments : incrementsThrough [16] shortened = 0 := by
    rw [incrementsThrough_eq ranged running (by decide) bounded,
      cycles_shortened]
    decide
  obtain ⟨counter, -⟩ :=
    advanceThrough_counter ranged running (by decide) bounded 0
  rw [increments, counterAfter,
    if_pos (Nat.sub_pos_of_lt shortened.counter.toNat_lt)] at counter
  refine
    ⟨.shortened, running, by decide, rfl, rfl, increments,
      UInt8.toNat_inj.mp counter, ?_⟩
  rw [KeepsRate, increments]
  decide

end Dmg.Timer
