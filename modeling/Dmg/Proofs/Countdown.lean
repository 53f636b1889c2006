import Dmg.Countdown
import Mathlib.Algebra.Group.Nat.Defs

namespace Dmg.Countdown

/-!
# What winding a countdown does

Winding is described on integers, without the width of the machine words: the
countdown goes up by whole periods, by as few as make it positive.  That
description determines the result, and two windings in a row add up to one.  So
letting time pass in portions is the same as letting it pass at once.
-/

/--
A countdown at `left` is wound to `wound` in so many expiries: it becomes positive,
and one period less would not have been enough.
-/
structure Winding
    (period left wound : Int)
    (expiries : Nat) :
    Prop where
  reached : wound = left + expiries * period
  positive : 0 < wound
  least : expiries = 0 ∨ wound ≤ period

namespace Winding

/-- A countdown that is positive already is not wound. -/
theorem refl
    {period left : Int}
    (positive : 0 < left) :
    Winding period left left 0 where
  reached := by simp
  positive := positive
  least := .inl rfl

/-- One period and then the winding from there make up the winding of a spent countdown. -/
theorem ofSpent
    {period left wound : Int}
    {expiries : Nat}
    (spent : left ≤ 0)
    (winding : Winding period (left + period) wound expiries) :
    Winding period left wound (expiries + 1) where
  reached := by
    rw [winding.reached]
    push_cast
    rw [Int.add_mul]
    omega
  positive := winding.positive
  least := by
    right
    rcases winding.least with untouched | atMostPeriod
    · have reached := winding.reached
      subst untouched
      simp only [Int.natCast_zero, Int.zero_mul] at reached
      omega
    · exact atMostPeriod

/-- No winding of the same countdown takes more expiries than another. -/
theorem expiries_le
    {period left firstWound secondWound : Int}
    {firstExpiries secondExpiries : Nat}
    (periodPositive : 0 < period)
    (first : Winding period left firstWound firstExpiries)
    (second : Winding period left secondWound secondExpiries) :
    firstExpiries ≤ secondExpiries := by
  apply Nat.le_of_not_lt
  intro more
  -- With more expiries the first would end a whole period above the second, which is
  -- positive, and so above what the least winding allows.
  have scaled :
      (secondExpiries + 1 : Int) * period ≤ firstExpiries * period :=
    Int.mul_le_mul_of_nonneg_right (by omega) (by omega)
  rw [Int.add_mul, Int.one_mul] at scaled
  have firstReached := first.reached
  have secondReached := second.reached
  have secondPositive := second.positive
  rcases first.least with none | atMostPeriod
  · omega
  · omega

/-- The winding of a countdown is determined. -/
theorem unique
    {period left firstWound secondWound : Int}
    {firstExpiries secondExpiries : Nat}
    (periodPositive : 0 < period)
    (first : Winding period left firstWound firstExpiries)
    (second : Winding period left secondWound secondExpiries) :
    firstWound = secondWound ∧ firstExpiries = secondExpiries := by
  have same : firstExpiries = secondExpiries :=
    Nat.le_antisymm
      (expiries_le periodPositive first second)
      (expiries_le periodPositive second first)
  refine ⟨?_, same⟩
  rw [first.reached, second.reached, same]

/-- Taking time from a wound countdown and winding again is one winding of it all. -/
theorem trans
    {period left middle wound taken : Int}
    {firstExpiries secondExpiries : Nat}
    (takenNonneg : 0 ≤ taken)
    (first : Winding period left middle firstExpiries)
    (second : Winding period (middle - taken) wound secondExpiries) :
    Winding period (left - taken) wound (firstExpiries + secondExpiries) where
  reached := by
    rw [second.reached, first.reached]
    push_cast
    rw [Int.add_mul]
    omega
  positive := second.positive
  least := by
    rcases second.least with noSecond | atMostPeriod
    · have reached := second.reached
      subst noSecond
      simp only [Int.natCast_zero, Int.zero_mul] at reached
      rcases first.least with noFirst | atMostPeriod
      · exact .inl (by omega)
      · exact .inr (by omega)
    · exact .inr atMostPeriod

end Winding

/-- `wind` is a winding, beside the expiries that had been counted before. -/
theorem wind_winding
    {period : Int64}
    (positive : 0 < period)
    (left : Int64)
    (counted : Nat) :
    ∃ expiries,
      (wind period left counted).2 = counted + expiries ∧
        Winding period.toInt left.toInt
          (wind period left counted).1.left.toInt expiries := by
  fun_induction wind period left counted with
  | case1 left counted spent inductionHypothesis =>
      obtain ⟨expiries, total, winding⟩ := inductionHypothesis
      refine ⟨expiries + 1, by omega, ?_⟩
      have leftSpent := Int64.le_iff_toInt_le.mp spent.1
      have periodPositive := Int64.lt_iff_toInt_lt.mp spent.2
      have leftBound := left.le_toInt
      have periodBound := period.toInt_lt
      rw [Int64.toInt_zero] at leftSpent periodPositive
      -- A spent countdown and a period add up without leaving the word.
      rw [Int64.toInt_add, Int.bmod_eq_of_le (by omega) (by omega)] at winding
      exact winding.ofSpent leftSpent
  | case2 left counted unspent =>
      refine ⟨0, rfl, .refl ?_⟩
      have leftPositive : ¬ left ≤ 0 :=
        fun spent => unspent ⟨spent, positive⟩
      rw [Int64.le_iff_toInt_le, Int64.toInt_zero] at leftPositive
      omega

/-- An elapsed time that fits a signed word is taken from a countdown as it is. -/
theorem toInt_sub_elapsed
    {left : Int64}
    {elapsed : UInt64}
    (standing : 0 ≤ left.toInt)
    (bounded : elapsed.toNat < 2 ^ 63) :
    (left - elapsed.toInt64).toInt = left.toInt - elapsed.toNat := by
  have leftBound := left.toInt_lt
  have taken : elapsed.toInt64.toInt = elapsed.toNat :=
    BitVec.toInt_eq_toNat_of_lt (x := elapsed.toBitVec)
      (show 2 * elapsed.toNat < 2 ^ 64 by omega)
  rw [Int64.toInt_sub, taken, Int.bmod_eq_of_le (by omega) (by omega)]

/-- Letting time pass takes it from the countdown and winds the rest. -/
theorem advance_winding
    (period : Int64)
    {elapsed : UInt64}
    {countdown : Countdown}
    (positive : 0 < period)
    (standing : 0 ≤ countdown.left.toInt)
    (bounded : elapsed.toNat < 2 ^ 63) :
    Winding period.toInt
      (countdown.left.toInt - elapsed.toNat)
      (countdown.advance period elapsed).1.left.toInt
      (countdown.advance period elapsed).2 := by
  obtain ⟨expiries, counted, winding⟩ :=
    wind_winding positive (countdown.left - elapsed.toInt64) 0
  rw [toInt_sub_elapsed standing bounded] at winding
  unfold advance
  rw [counted, Nat.zero_add]
  exact winding

/--
Letting time pass in two portions leaves the countdown as it is after both at once,
and the expiries of the portions add up.
-/
theorem advance_add
    {period : Int64}
    {first second : UInt64}
    {countdown : Countdown}
    (positive : 0 < period)
    (standing : 0 ≤ countdown.left.toInt)
    (bounded : first.toNat + second.toNat < 2 ^ 63) :
    countdown.advance period (first + second) =
      (((countdown.advance period first).1.advance period second).1,
        (countdown.advance period first).2 +
          ((countdown.advance period first).1.advance period second).2) := by
  have firstWinding :=
    advance_winding period positive standing
      (show first.toNat < 2 ^ 63 by omega)
  have secondWinding :=
    advance_winding period positive
      (Int.le_of_lt firstWinding.positive)
      (show second.toNat < 2 ^ 63 by omega)
  have sum : (first + second).toNat = first.toNat + second.toNat := by
    rw [UInt64.toNat_add, Nat.mod_eq_of_lt (by omega)]
  have whole :=
    advance_winding period positive standing
      (show (first + second).toNat < 2 ^ 63 by omega)
  have parts := firstWinding.trans (by omega) secondWinding
  rw [sum, Int.natCast_add, ← Int.sub_sub] at whole
  -- Both ways are windings from the same place, of which there is only one.
  obtain ⟨sameLeft, sameExpiries⟩ :=
    whole.unique (Int64.lt_iff_toInt_lt.mp positive) parts
  exact Prod.ext
    (congrArg Countdown.mk (Int64.toInt_inj.mp sameLeft))
    sameExpiries

end Dmg.Countdown
