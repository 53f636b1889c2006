namespace Dmg

/-!
# Periodic countdowns

A countdown holds the cycles that are left until its next expiry.  Time is taken
from it first; then it is wound up by whole periods until it is positive again,
and each winding counts as one expiry.  A countdown that stands at zero therefore
expires as soon as any time, even none, is taken from it.
-/

/-- The cycles left until the next expiry. -/
structure Countdown where
  left : Int64
  deriving Repr, DecidableEq

namespace Countdown

/-- Winding a spent countdown up by a positive period brings it nearer to one. -/
theorem wind_measure_lt
    {period left : Int64}
    (spent : left ≤ 0)
    (positive : 0 < period) :
    (1 - (left + period).toInt).toNat < (1 - left.toInt).toNat := by
  rw [Int64.le_iff_toInt_le] at spent
  rw [Int64.lt_iff_toInt_lt] at positive
  have leftBound := left.le_toInt
  have periodBound := period.toInt_lt
  rw [Int64.toInt_zero] at spent positive
  rw [Int64.toInt_add, Int.bmod_eq_of_le (by omega) (by omega)]
  omega

/--
Wind a countdown up until it is positive, adding the number of periods that this
took to those already counted.
-/
def wind
    (period left : Int64)
    (expiries : Nat) :
    Countdown × Nat :=
  if spent : left ≤ 0 ∧ 0 < period then
    wind period (left + period) (expiries + 1)
  else
    (⟨left⟩, expiries)
termination_by (1 - left.toInt).toNat
decreasing_by
  exact wind_measure_lt spent.1 spent.2

/-- Let time pass: the countdown afterwards and how often it expired. -/
def advance
    (period : Int64)
    (elapsed : UInt64)
    (countdown : Countdown) :
    Countdown × Nat :=
  wind period (countdown.left - elapsed.toInt64) 0

end Countdown

end Dmg
