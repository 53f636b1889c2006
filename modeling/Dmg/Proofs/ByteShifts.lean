import Dmg.Proofs.BinaryArithmetic
import Dmg.Proofs.Requests

namespace Dmg

/-!
# Shifting numbers of any length

A byte that is rotated through the carry flag takes in the bit that the byte before it has
given out.  A number is so moved to the left from its least significant byte upwards, and to
the right from its most significant byte downwards.  In either direction every byte
accounts for its bits: twice the lesser number and the bits that come and go make up the
other one.  It follows that the one direction doubles, the other halves, and each undoes
the other.
-/

namespace Rotation

/-- The highest bit of a byte tells whether the byte is in the upper half. -/
theorem highBit_eq (value : UInt8) :
    highBit value = decide (128 ≤ value.toNat) := by
  have fits := value.toNat_lt
  have power : (0x80 : UInt8).toNat = 2 ^ 7 := rfl
  rw [highBit, Byte.masked_eq_testBit power,
    Nat.testBit_eq_decide_div_mod_eq]
  exact decide_eq_decide.mpr (by omega)

/-- The lowest bit of a byte tells whether the byte is odd. -/
theorem lowBit_eq (value : UInt8) :
    lowBit value = decide (value.toNat % 2 = 1) := by
  have power : (0x01 : UInt8).toNat = 2 ^ 0 := rfl
  rw [lowBit, Byte.masked_eq_testBit power, Nat.testBit_zero]

theorem toNat_shiftLeft_value
    (value : UInt8)
    (entering : Bool) :
    (shiftLeft value entering).value.toNat =
      2 * (value.toNat % 128) + entering.toNat := by
  have bitFits := entering.toNat_le
  have joined :=
    Nat.two_pow_add_eq_or_of_lt (i := 1) (b := entering.toNat) (by omega)
      (value.toNat % 128)
  have moved : value.toNat <<< 1 % 256 = 2 ^ 1 * (value.toNat % 128) := by
    rw [Nat.shiftLeft_eq]
    omega
  simp only [shiftLeft, UInt8.toNat_or, UInt8.toNat_shiftLeft,
    Alu.toNat_toUInt8, UInt8.toNat_ofNat, Nat.reducePow, Nat.reduceMod,
    moved]
  exact joined.symm

theorem toNat_shiftRight_value
    (value : UInt8)
    (entering : Bool) :
    (shiftRight value entering).value.toNat =
      128 * entering.toNat + value.toNat / 2 := by
  have fits := value.toNat_lt
  have bitFits := entering.toNat_le
  have joined :=
    Nat.two_pow_add_eq_or_of_lt (i := 7) (b := value.toNat / 2) (by omega)
      entering.toNat
  have moved : entering.toNat <<< 7 % 256 = 2 ^ 7 * entering.toNat := by
    rw [Nat.shiftLeft_eq]
    omega
  simp only [shiftRight, UInt8.toNat_or, UInt8.toNat_shiftLeft,
    UInt8.toNat_shiftRight, Alu.toNat_toUInt8, UInt8.toNat_ofNat,
    Nat.reducePow, Nat.reduceMod, Nat.shiftRight_eq_div_pow, moved]
  rw [Nat.or_comm]
  exact joined.symm

/-- A shift to the left doubles, with the bit that enters, up to the bit that leaves. -/
theorem shiftLeft_adds
    (value : UInt8)
    (entering : Bool) :
    Numeral.binary.Adds entering (value, value)
      (shiftLeft value entering).value (shiftLeft value entering).carry := by
  have fits := value.toNat_lt
  refine ⟨trivial, ?_⟩
  change
    (shiftLeft value entering).value.toNat +
        256 * (highBit value).toNat =
      value.toNat + value.toNat + entering.toNat
  rw [toNat_shiftLeft_value, highBit_eq, Alu.toNat_decide]
  split <;> omega

/-- A shift to the right is balanced as the shift to the left that undoes it. -/
theorem shiftRight_adds
    (value : UInt8)
    (entering : Bool) :
    Numeral.binary.Adds (shiftRight value entering).carry
      ((shiftRight value entering).value, (shiftRight value entering).value)
      value entering := by
  have fits := value.toNat_lt
  refine ⟨trivial, ?_⟩
  change
    value.toNat + 256 * entering.toNat =
      (shiftRight value entering).value.toNat +
          (shiftRight value entering).value.toNat +
        (lowBit value).toNat
  rw [toNat_shiftRight_value, lowBit_eq, Alu.toNat_decide]
  split <;> omega

/-- Bytes that have been shifted in turn, and the bit that was shifted out last. -/
structure ShiftedInTurn where
  values : List UInt8
  carry : Bool
  deriving Repr, DecidableEq

/-- The effect of rotations on bytes in turn, each given the carry flag of the one before. -/
def applyInTurn (carry : Bool) : List (Rotation × UInt8) → ShiftedInTurn
  | [] => ⟨[], carry⟩
  | (rotation, value) :: rest =>
      let shifted := rotation.apply value carry
      let others := applyInTurn shifted.carry rest
      ⟨shifted.value :: others.values, others.carry⟩

/-- One rotation is meant for the first of some things, another for those behind it. -/
def inTurn
    (first following : Rotation) :
    List α → List (Rotation × α)
  | [] => []
  | head :: rest => (first, head) :: rest.map (following, ·)

@[simp]
theorem inTurn_same
    (rotation : Rotation)
    (things : List α) :
    inTurn rotation rotation things = things.map (rotation, ·) := by
  cases things <;> rfl

/-- What is left of rotations upwards accounts for the number twice. -/
theorem columns_rl
    (carry : Bool)
    (values : List UInt8) :
    let shifted := applyInTurn carry (values.map (.rl, ·))
    Numeral.binary.Columns carry values values shifted.values
      shifted.carry := by
  induction values generalizing carry with
  | nil => exact .nil carry
  | cons value rest inductionHypothesis =>
      exact .cons (shiftLeft_adds value carry).2 (inductionHypothesis _)

/-- What is left of rotations downwards, counted twice, accounts for the number. -/
theorem columns_rr
    (carry : Bool)
    (values : List UInt8) :
    let shifted := applyInTurn carry (values.map (.rr, ·))
    Numeral.binary.Columns shifted.carry shifted.values.reverse
      shifted.values.reverse values.reverse carry := by
  induction values generalizing carry with
  | nil => exact .nil carry
  | cons value rest inductionHypothesis =>
      have lower := inductionHypothesis (shiftRight value carry).carry
      have whole := lower.snoc (shiftRight_adds value carry).2
      simp only [← List.reverse_cons] at whole
      exact whole

end Rotation

namespace Numeral

/-- The highest bit of a number of so many bytes. -/
def topBit (bytes : List UInt8) : Bool :=
  (binary.number bytes).testBit (8 * bytes.length - 1)

/-- The lowest bit of a number. -/
def bottomBit (bytes : List UInt8) : Bool :=
  (binary.number bytes).testBit 0

/-- The number that bytes stand for in two's complement, the least significant one first. -/
def signed (bytes : List UInt8) : Int :=
  (binary.number bytes : Int).bmod (256 ^ bytes.length)

theorem number_lt_power (bytes : List UInt8) :
    binary.number bytes < 256 ^ bytes.length :=
  number_lt fun _ _ => trivial

/-- The highest bit tells whether the double of the number fits. -/
theorem topBit_eq
    {bytes : List UInt8}
    (nonempty : bytes ≠ []) :
    topBit bytes =
      decide (256 ^ bytes.length ≤ 2 * binary.number bytes) := by
  have fits := number_lt_power bytes
  have positive := List.length_pos_iff.mpr nonempty
  have half : 256 ^ bytes.length = 2 * 2 ^ (8 * bytes.length - 1) := by
    rw [← Nat.pow_succ', show (256 : Nat) = 2 ^ 8 from rfl, ← Nat.pow_mul]
    congr 1
    omega
  rw [half] at fits ⊢
  rw [topBit, Nat.testBit_eq_decide_div_mod_eq,
    Nat.mod_eq_of_lt (Nat.div_lt_of_lt_mul (by omega))]
  refine decide_eq_decide.mpr ?_
  have positivePower := Nat.two_pow_pos (8 * bytes.length - 1)
  rw [Nat.div_eq_iff positivePower]
  omega

/-- The lowest bit tells what is left when the number is halved. -/
theorem eq_bottomBit
    {bytes : List UInt8}
    {bit : Bool}
    (rest : bit.toNat = binary.number bytes % 2) :
    bit = bottomBit bytes := by
  rw [bottomBit, Nat.testBit_zero, ← rest]
  cases bit <;> rfl

/-- A number whose highest bit is set stands for a negative one. -/
theorem signed_eq
    {bytes : List UInt8}
    (nonempty : bytes ≠ []) :
    signed bytes =
      binary.number bytes -
        (256 ^ bytes.length * (topBit bytes).toNat : Nat) := by
  have fits := number_lt_power bytes
  have whole :
      (binary.number bytes : Int) % (256 ^ bytes.length : Nat) =
        binary.number bytes := by
    exact_mod_cast Nat.mod_eq_of_lt fits
  rw [signed, topBit_eq nonempty, Alu.toNat_decide, Int.bmod_def, whole]
  generalize 256 ^ bytes.length = power at *
  generalize binary.number bytes = number at *
  by_cases negative : power ≤ 2 * number
  · rw [if_pos negative, if_neg (by omega)]
    omega
  · rw [if_neg negative, if_pos (by omega)]
    omega

/-- The highest bit of a number is that of its most significant byte. -/
theorem topBit_append
    (lower : List UInt8)
    (value : UInt8) :
    topBit (lower ++ [value]) = Rotation.highBit value := by
  have fits := number_lt_power lower
  have joined :
      binary.number (lower ++ [value]) =
        binary.number lower + 256 ^ lower.length * value.toNat := by
    simp [number, Nat.ofDigits_append, binary]
  rw [topBit_eq (by simp), Rotation.highBit_eq, joined,
    List.length_append, List.length_singleton, Nat.pow_succ]
  refine decide_eq_decide.mpr ⟨fun reaches => ?_, fun upper => ?_⟩
  · by_contra lowerHalf
    have few : 256 ^ lower.length * (value.toNat + 1) ≤
        256 ^ lower.length * 128 :=
      Nat.mul_le_mul_left _ (by omega)
    rw [Nat.mul_succ] at few
    omega
  · have many : 256 ^ lower.length * 128 ≤
        256 ^ lower.length * value.toNat :=
      Nat.mul_le_mul_left _ upper
    omega

/-- Numbers of one length are equal only if their bytes are. -/
theorem number_injective
    {left right : List UInt8}
    (sameLength : left.length = right.length)
    (same : binary.number left = binary.number right) :
    left = right := by
  have digitLt {bytes : List UInt8} :
      ∀ digit ∈ bytes.map UInt8.toNat, digit < 256 := by
    simp only [List.mem_map]
    rintro _ ⟨byte, -, rfl⟩
    exact byte.toNat_lt
  have sameDigits : left.map UInt8.toNat = right.map UInt8.toNat :=
    Nat.ofDigits_inj_of_len_eq (b := 256) (by decide)
      (by simpa using sameLength) digitLt digitLt same
  exact List.map_injective_iff.mpr (fun _ _ => UInt8.toNat_inj.mp) sameDigits

namespace Columns

variable
  {carry last : Bool}
  {lesser greater : List UInt8}

/-- What is shifted out of the double of a number was the number's highest bit. -/
theorem double
    (columns : binary.Columns false lesser lesser greater last)
    (nonempty : lesser ≠ []) :
    binary.number greater =
        2 * binary.number lesser % 256 ^ lesser.length ∧
      last = topBit lesser := by
  have balance := columns.balance
  have fits := number_lt_power greater
  rw [topBit_eq nonempty]
  rw [← columns.length_left] at balance fits
  change
    binary.number greater + 256 ^ lesser.length * last.toNat =
      binary.number lesser + binary.number lesser + false.toNat at balance
  rw [Bool.toNat_false] at balance
  cases last with
  | false =>
      rw [Bool.toNat_false] at balance
      refine ⟨?_, (decide_eq_false (by omega)).symm⟩
      rw [Nat.mod_eq_of_lt (by omega)]
      omega
  | true =>
      rw [Bool.toNat_true] at balance
      refine ⟨?_, (decide_eq_true (by omega)).symm⟩
      rw [Nat.mod_eq_sub_mod (by omega), Nat.mod_eq_of_lt (by omega)]
      omega

/-- What is shifted out of the half of a number was its lowest bit. -/
theorem half
    (columns : binary.Columns last lesser lesser greater false) :
    binary.number lesser = binary.number greater / 2 ∧
      last = bottomBit greater := by
  have balance := columns.balance
  rw [Bool.toNat_false, Nat.mul_zero, Nat.add_zero] at balance
  have lastFits := last.toNat_le
  exact ⟨by omega, eq_bottomBit (by omega)⟩

/-- The half of a signed number has the sign of the number. -/
theorem topBit_half
    (columns :
      binary.Columns last lesser lesser greater (topBit greater))
    (nonempty : greater ≠ []) :
    topBit lesser = topBit greater := by
  have balance := columns.balance
  have lastFits := last.toNat_le
  have fits := number_lt_power greater
  have sameLength := columns.length_left
  have lesserNonempty : lesser ≠ [] := by
    rintro rfl
    exact nonempty (List.length_eq_zero_iff.mp sameLength.symm)
  rw [topBit_eq lesserNonempty, sameLength]
  rw [topBit_eq nonempty, Alu.toNat_decide] at balance
  rw [topBit_eq nonempty]
  change
    binary.number greater + 256 ^ greater.length * _ = _ at balance
  refine decide_eq_decide.mpr ?_
  by_cases negative : 256 ^ greater.length ≤ 2 * binary.number greater
  · rw [if_pos negative] at balance
    omega
  · rw [if_neg negative] at balance
    omega

/-- A signed number is halved if its highest bit enters, and is rounded down. -/
theorem signedHalf
    (columns :
      binary.Columns last lesser lesser greater (topBit greater))
    (nonempty : greater ≠ []) :
    signed lesser = signed greater / 2 ∧ last = bottomBit greater := by
  have balance := columns.balance
  have lastFits := last.toNat_le
  have sameLength := columns.length_left
  have sameSign := columns.topBit_half nonempty
  have lesserNonempty : lesser ≠ [] := by
    rintro rfl
    exact nonempty (List.length_eq_zero_iff.mp sameLength.symm)
  have even : 2 ∣ 256 ^ greater.length * (topBit greater).toNat := by
    have lengthNonzero := mt List.length_eq_zero_iff.mp nonempty
    exact (dvd_pow (by decide) lengthNonzero).mul_right _
  rw [signed_eq lesserNonempty, signed_eq nonempty, sameLength, sameSign]
  change
    binary.number greater +
        256 ^ greater.length * (topBit greater).toNat = _ at balance
  exact ⟨by omega, eq_bottomBit (by omega)⟩

/-- The number of which another one is the double can be told from that. -/
theorem double_injective
    {other : List UInt8}
    {otherCarry : Bool}
    (columns : binary.Columns carry lesser lesser greater last)
    (otherColumns : binary.Columns otherCarry other other greater last) :
    lesser = other ∧ carry = otherCarry := by
  have balance := columns.balance
  have otherBalance := otherColumns.balance
  have carryFits := carry.toNat_le
  have otherFits := otherCarry.toNat_le
  have sameLength : lesser.length = other.length :=
    columns.length_left.trans otherColumns.length_left.symm
  have sameCarry : carry.toNat = otherCarry.toNat := by omega
  refine ⟨number_injective sameLength (by omega), ?_⟩
  revert sameCarry
  cases carry <;> cases otherCarry <;> decide

end Columns

end Numeral

namespace Rotation

open Numeral

section Chains

variable
  (carry : Bool)
  {values : List UInt8}
  (nonempty : values ≠ [])
include nonempty

/-- Shifted to the left from its lowest byte upwards, a number is doubled. -/
theorem sla_rl_doubles :
    let shifted := applyInTurn carry (inTurn .sla .rl values)
    binary.number shifted.values =
        2 * binary.number values % 256 ^ values.length ∧
      shifted.carry = topBit values := by
  -- The carry flag does not enter, which is as if it had been clear.
  have cleared :
      applyInTurn carry (inTurn .sla .rl values) =
        applyInTurn false (values.map (.rl, ·)) := by
    cases values with
    | nil => exact (nonempty rfl).elim
    | cons value rest => rfl
  rw [cleared]
  exact (columns_rl false values).double nonempty

/-- Shifted to the right from its highest byte downwards, a number is halved. -/
theorem srl_rr_halves :
    let shifted := applyInTurn carry (inTurn .srl .rr values)
    binary.number shifted.values.reverse =
        binary.number values.reverse / 2 ∧
      shifted.carry = bottomBit values.reverse := by
  have cleared :
      applyInTurn carry (inTurn .srl .rr values) =
        applyInTurn false (values.map (.rr, ·)) := by
    cases values with
    | nil => exact (nonempty rfl).elim
    | cons value rest => rfl
  rw [cleared]
  exact (columns_rr false values).half

/-- If the highest bit is kept, the signed number is halved and rounded down. -/
theorem sra_rr_halves_signed :
    let shifted := applyInTurn carry (inTurn .sra .rr values)
    signed shifted.values.reverse = signed values.reverse / 2 ∧
      shifted.carry = bottomBit values.reverse := by
  -- What enters is the highest bit of the number, whatever the carry flag.
  have kept :
      applyInTurn carry (inTurn .sra .rr values) =
        applyInTurn (topBit values.reverse) (values.map (.rr, ·)) := by
    cases values with
    | nil => exact (nonempty rfl).elim
    | cons value rest =>
        rw [List.reverse_cons, topBit_append]
        rfl
  have reverseNonempty : values.reverse ≠ [] :=
    mt List.reverse_eq_nil_iff.mp nonempty
  rw [kept]
  exact (columns_rr (topBit values.reverse) values).signedHalf reverseNonempty

end Chains

/-- Rotated upwards and then downwards, a number and the carry are as before. -/
theorem rr_undoes_rl
    (carry : Bool)
    (values : List UInt8) :
    let up := applyInTurn carry (values.map (.rl, ·))
    let down := applyInTurn up.carry (up.values.reverse.map (.rr, ·))
    down.values.reverse = values ∧ down.carry = carry := by
  intro up down
  have upwards := columns_rl carry values
  have downwards := columns_rr up.carry up.values.reverse
  rw [List.reverse_reverse] at downwards
  exact downwards.double_injective upwards

end Rotation

end Dmg
