import Dmg.Proofs.Phase

namespace Dmg.Countdown

/-!
# Expiries in closed form

A countdown expires when the cycles that are left have passed, and once every period from
then on.  So the number of its expiries over any span of time is a quotient, and what is
left of it afterwards is a period less a remainder; a countdown that was left over from a
longer period has only a longer way to its first expiry.
-/

/-- The cycles that are left, as a number; none if the countdown has run below zero. -/
def cycles (countdown : Countdown) : Nat :=
  countdown.left.toInt.toNat

/-- A countdown that has not run below zero is the number of its cycles. -/
theorem left_eq_cycles
    {countdown : Countdown}
    (standing : 0 ≤ countdown.left.toInt) :
    countdown.left.toInt = countdown.cycles :=
  (Int.toNat_of_nonneg standing).symm

/-- How often a countdown with so many cycles left expires over a span of time. -/
def expiriesWithin (period left elapsed : Nat) : Nat :=
  if elapsed < left then
    0
  else
    (elapsed - left) / period + 1

/-- What is left of a countdown after a span of time. -/
def leftAfter (period left elapsed : Nat) : Nat :=
  if elapsed < left then
    left - elapsed
  else
    period - (elapsed - left) % period

variable {period left elapsed : Nat}

/-- What is left after a span of time is at most a period, or less than before. -/
theorem leftAfter_le (period left elapsed : Nat) :
    leftAfter period left elapsed ≤ max period left := by
  unfold leftAfter
  split <;> omega

/-- The closed forms describe a winding. -/
theorem winding_leftAfter (positive : 0 < period) :
    Winding period (left - elapsed)
      (leftAfter period left elapsed)
      (expiriesWithin period left elapsed) := by
  unfold leftAfter expiriesWithin
  by_cases untouched : elapsed < left
  · rw [if_pos untouched, if_pos untouched]
    constructor
    · rw [Int.natCast_zero, Int.zero_mul]
      omega
    · omega
    · exact .inl rfl
  · rw [if_neg untouched, if_neg untouched]
    have remainder := Nat.mod_lt (elapsed - left) positive
    have divided := Nat.div_add_mod (elapsed - left) period
    have scaled :
        (((elapsed - left) / period + 1 : Nat) : Int) * period =
          (period * ((elapsed - left) / period) + period : Nat) := by
      rw [← Int.natCast_mul, Nat.add_mul, Nat.one_mul, Nat.mul_comm]
    constructor
    · rw [scaled]
      omega
    · omega
    · exact .inr (by omega)

/-- Letting time pass is what the closed forms say. -/
theorem advance_eq_leftAfter
    {width : Int64}
    {time : UInt64}
    {countdown : Countdown}
    (isPeriod : width.toInt = period)
    (positive : 0 < period)
    (standing : 0 ≤ countdown.left.toInt)
    (bounded : time.toNat < 2 ^ 63) :
    (countdown.advance width time).1.left.toInt =
        leftAfter period countdown.cycles time.toNat ∧
      (countdown.advance width time).2 =
        expiriesWithin period countdown.cycles time.toNat := by
  have widthPositive : 0 < width :=
    Int64.lt_iff_toInt_lt.mpr (by rw [isPeriod, Int64.toInt_zero]; omega)
  have advanced := advance_winding width widthPositive standing bounded
  rw [isPeriod, left_eq_cycles standing] at advanced
  exact advanced.unique (by omega) (winding_leftAfter positive)

/--
A countdown with at most a period left expires once for every whole period of a span of
time, and at most once more.
-/
theorem expiriesWithin_of_le
    (positive : 0 < period)
    (atMost : left ≤ period)
    (elapsed : Nat) :
    expiriesWithin period left elapsed = elapsed / period ∨
      expiriesWithin period left elapsed = elapsed / period + 1 := by
  unfold expiriesWithin
  by_cases untouched : elapsed < left
  · rw [if_pos untouched, Nat.div_eq_of_lt (by omega)]
    exact .inl rfl
  · have enough : elapsed / period ≤ (elapsed - left) / period + 1 := by
      rw [← Nat.add_div_right _ positive]
      exact Nat.div_le_div_right (by omega)
    have notMore : (elapsed - left) / period ≤ elapsed / period :=
      Nat.div_le_div_right (Nat.sub_le elapsed left)
    rw [if_neg untouched]
    omega

/-- Within a span of time a countdown expires if no more than that is left. -/
theorem expiriesWithin_pos_iff :
    0 < expiriesWithin period left elapsed ↔ left ≤ elapsed := by
  unfold expiriesWithin
  split
  case isTrue untouched => simpa using untouched
  case isFalse expired =>
    exact
      ⟨fun _ => Nat.le_of_not_lt expired, fun _ => Nat.succ_pos _⟩

/-- Once a countdown has expired, at most a period is left. -/
theorem leftAfter_le_of_le (expired : left ≤ elapsed) :
    leftAfter period left elapsed ≤ period := by
  rw [leftAfter, if_neg (Nat.not_lt_of_le expired)]
  exact Nat.sub_le _ _

/--
A countdown that lies within its period has expired once for every period that has been
begun, if time is counted from where the current period began.
-/
theorem advance_within
    {width : Int64}
    {time : UInt64}
    {countdown : Countdown}
    (isPeriod : width.toInt = period)
    (begun : 1 ≤ countdown.left.toInt)
    (atMost : countdown.left.toInt ≤ period)
    (bounded : time.toNat < 2 ^ 63) :
    let past := period - countdown.cycles + time.toNat
    (countdown.advance width time).1.left.toInt =
        period - (past % period : Nat) ∧
      (countdown.advance width time).2 = past / period := by
  intro past
  have standing : 0 ≤ countdown.left.toInt := by
    omega
  have isLeft := left_eq_cycles standing
  have inPeriod : period - countdown.cycles < period := by
    omega
  have inPhase :
      countdown.left.toInt =
        period - ((period - countdown.cycles) % period : Nat) := by
    rw [Nat.mod_eq_of_lt inPeriod]
    omega
  obtain ⟨wound, counted⟩ :=
    advance_phase isPeriod (by omega) inPhase bounded
  rw [Nat.div_eq_of_lt inPeriod, Nat.zero_add] at counted
  exact ⟨wound, counted⟩

end Dmg.Countdown
