import Dmg.Cpu.Basic
import Mathlib.Data.Nat.Digits.Lemmas

namespace Dmg

/-!
# Arithmetic byte by byte

A number of any length is worked on one byte after the other, from the least significant
one, and the carry flag takes from each byte to the next what does not fit.  What is done
with a byte is left open here.  If it is right for one byte, that is if the byte that is
left and the carry account for the bytes and the carry that came in, then it is right for
numbers of any length.
-/

/-- A way to write a number in bytes: how a byte that may occur is read as a digit. -/
structure Numeral where
  base : Nat
  one_lt_base : 1 < base
  digit : UInt8 → Nat
  Valid : UInt8 → Prop
  digit_lt : ∀ byte, Valid byte → digit byte < base

namespace Numeral

variable (numeral : Numeral)

/-- The number that bytes stand for, the least significant one first. -/
def number (bytes : List UInt8) : Nat :=
  Nat.ofDigits numeral.base (bytes.map numeral.digit)

variable {numeral}

@[simp]
theorem number_nil : numeral.number [] = 0 :=
  rfl

@[simp]
theorem number_cons
    (byte : UInt8)
    (bytes : List UInt8) :
    numeral.number (byte :: bytes) =
      numeral.digit byte + numeral.base * numeral.number bytes :=
  Nat.ofDigits_cons

/-- A number is less than the power of the base that has its length as exponent. -/
theorem number_lt
    {bytes : List UInt8}
    (valid : ∀ byte ∈ bytes, numeral.Valid byte) :
    numeral.number bytes < numeral.base ^ bytes.length := by
  have digits :
      ∀ digit ∈ bytes.map numeral.digit, digit < numeral.base := by
    simp only [List.mem_map]
    rintro _ ⟨byte, member, rfl⟩
    exact numeral.digit_lt byte (valid byte member)
  have bounded :=
    Nat.ofDigits_lt_base_pow_length numeral.one_lt_base digits
  rwa [List.length_map] at bounded

variable (numeral)

/--
Adding up in columns: the digits of the first two lists, with the carry that comes in, give
the digits of the third and the carry that is left.
-/
inductive Columns :
    Bool → List UInt8 → List UInt8 → List UInt8 → Bool → Prop
  | nil (carry : Bool) : Columns carry [] [] [] carry
  | cons
      {carry next last : Bool}
      {left right sum : UInt8}
      {lefts rights sums : List UInt8}
      (balanced :
        numeral.digit sum + numeral.base * next.toNat =
          numeral.digit left + numeral.digit right + carry.toNat)
      (rest : Columns next lefts rights sums last) :
      Columns carry (left :: lefts) (right :: rights) (sum :: sums) last

namespace Columns

variable
  {numeral}
  {carry last : Bool}
  {lefts rights sums : List UInt8}

theorem length_left
    (columns : numeral.Columns carry lefts rights sums last) :
    lefts.length = sums.length := by
  induction columns with
  | nil => rfl
  | cons balanced rest inductionHypothesis =>
      exact congrArg (· + 1) inductionHypothesis

/-- One more column is added up behind the others. -/
theorem snoc
    (columns : numeral.Columns carry lefts rights sums last)
    {next : Bool}
    {left right sum : UInt8}
    (balanced :
      numeral.digit sum + numeral.base * next.toNat =
        numeral.digit left + numeral.digit right + last.toNat) :
    numeral.Columns carry (lefts ++ [left]) (rights ++ [right])
      (sums ++ [sum]) next := by
  induction columns with
  | nil carry => exact .cons balanced (.nil next)
  | cons head rest inductionHypothesis =>
      exact .cons head (inductionHypothesis balanced)

/-- What every column accounts for, the numbers account for. -/
theorem balance
    (columns : numeral.Columns carry lefts rights sums last) :
    numeral.number sums + numeral.base ^ sums.length * last.toNat =
      numeral.number lefts + numeral.number rights + carry.toNat := by
  induction columns with
  | nil carry => simp
  | @cons carry next last left right sum lefts rights sums balanced rest
      inductionHypothesis =>
      have weight :
          numeral.base ^ (sum :: sums).length * last.toNat =
            numeral.base * (numeral.base ^ sums.length * last.toNat) := by
        rw [List.length_cons, pow_succ]
        ring
      calc
        numeral.number (sum :: sums) +
              numeral.base ^ (sum :: sums).length * last.toNat =
            numeral.digit sum +
              numeral.base *
                (numeral.number sums +
                  numeral.base ^ sums.length * last.toNat) := by
          rw [weight, number_cons]
          ring
        _ = numeral.digit sum + numeral.base * next.toNat +
              numeral.base *
                (numeral.number lefts + numeral.number rights) := by
          rw [inductionHypothesis]
          ring
        _ = numeral.number (left :: lefts) +
              numeral.number (right :: rights) + carry.toNat := by
          rw [balanced, number_cons, number_cons]
          ring

end Columns

/--
The results are the sum of the numbers in the two columns and the carry, as far as it fits
in their length, and the last carry tells whether it fits.
-/
structure IsSum
    (carry : Bool)
    (pairs : List (UInt8 × UInt8))
    (results : List UInt8)
    (last : Bool) :
    Prop where
  length : results.length = pairs.length
  valid : ∀ byte ∈ results, numeral.Valid byte
  number_eq :
    numeral.number results =
      (numeral.number (pairs.map Prod.fst) +
          numeral.number (pairs.map Prod.snd) + carry.toNat) %
        numeral.base ^ pairs.length
  carry_iff :
    last = true ↔
      numeral.base ^ pairs.length ≤
        numeral.number (pairs.map Prod.fst) +
          numeral.number (pairs.map Prod.snd) + carry.toNat

/--
The results are the number in the first column less that in the second and the borrow,
modulo what fits in their length, and the last borrow tells whether that was too little.
-/
structure IsDifference
    (borrow : Bool)
    (pairs : List (UInt8 × UInt8))
    (results : List UInt8)
    (last : Bool) :
    Prop where
  length : results.length = pairs.length
  valid : ∀ byte ∈ results, numeral.Valid byte
  number_eq :
    (numeral.number results : Int) =
      (numeral.number (pairs.map Prod.fst) -
          numeral.number (pairs.map Prod.snd) - borrow.toNat) %
        numeral.base ^ pairs.length
  borrow_iff :
    last = true ↔
      numeral.number (pairs.map Prod.fst) <
        numeral.number (pairs.map Prod.snd) + borrow.toNat

variable
  {numeral}
  {carry last : Bool}
  {pairs : List (UInt8 × UInt8)}
  {results : List UInt8}

/-- Adding up in columns gives the sum. -/
theorem Columns.isSum
    (columns :
      numeral.Columns carry (pairs.map Prod.fst) (pairs.map Prod.snd)
        results last)
    (valid : ∀ byte ∈ results, numeral.Valid byte) :
    numeral.IsSum carry pairs results last := by
  have sameLength : results.length = pairs.length := by
    rw [← columns.length_left, List.length_map]
  have bounded := number_lt valid
  have balance := columns.balance
  rw [sameLength] at bounded balance
  refine ⟨sameLength, valid, ?_, ?_⟩
  · rw [← balance, Nat.add_mul_mod_self_left, Nat.mod_eq_of_lt bounded]
  · rw [← balance]
    cases last with
    | false => simpa using bounded
    | true => simp

/-- What added to the second column gives the first one is the difference. -/
theorem Columns.isDifference
    (columns :
      numeral.Columns carry results (pairs.map Prod.snd)
        (pairs.map Prod.fst) last)
    (valid : ∀ byte ∈ results, numeral.Valid byte) :
    numeral.IsDifference carry pairs results last := by
  have sameLength : results.length = pairs.length := by
    rw [columns.length_left, List.length_map]
  have bounded := number_lt valid
  have balance := columns.balance
  rw [sameLength] at bounded
  rw [List.length_map] at balance
  refine ⟨sameLength, valid, ?_, ?_⟩
  · have account :
        (numeral.number (pairs.map Prod.fst) : Int) -
              numeral.number (pairs.map Prod.snd) - carry.toNat =
          numeral.number results -
            numeral.base ^ pairs.length * (last.toNat : Int) := by
      zify at balance
      linarith
    rw [account, Int.sub_mul_emod_self_left]
    refine (Int.emod_eq_of_lt (Int.natCast_nonneg _) ?_).symm
    exact_mod_cast bounded
  · cases last with
    | false =>
        simp only [Bool.toNat_false, Nat.mul_zero, Nat.add_zero] at balance
        simp only [Bool.false_eq_true, false_iff, not_lt]
        omega
    | true =>
        simp only [Bool.toNat_true, Nat.mul_one] at balance
        simp only [true_iff]
        omega

end Numeral

/--
What is done with a byte, or with two, given a carry: it ends with a byte and flags that
have the property.
-/
abbrev ByteWork (α : Type) : Type :=
  Bool → α → (UInt8 → Flags → Prop) → Prop

namespace ByteWork

/--
The work is done on one input after the other, each time with the carry flag that the one
before has left; it ends with bytes and a carry that have the property.
-/
def Chain
    (work : ByteWork α) :
    Bool → List α → (List UInt8 → Bool → Prop) → Prop
  | carry, [], property => property [] carry
  | carry, first :: rest, property =>
      work carry first fun result flags =>
        work.Chain flags.carry rest fun results last =>
          property (result :: results) last

/-- A chain whose first input is worked on in another way. -/
def ChainAfter
    (beginning work : ByteWork α)
    (carry : Bool)
    (first : α)
    (rest : List α)
    (property : List UInt8 → Bool → Prop) :
    Prop :=
  beginning carry first fun result flags =>
    work.Chain flags.carry rest fun results last =>
      property (result :: results) last

/-- What the work is known to end with may be weakened. -/
def Monotone (work : ByteWork α) : Prop :=
  ∀ (carry : Bool) (input : α) (property other : UInt8 → Flags → Prop),
    work carry input property →
      (∀ result flags, property result flags → other result flags) →
        work carry input other

/-- Every input has given its result by the step, and the carry has gone along. -/
inductive Links
    (step : Bool → α → UInt8 → Bool → Prop) :
    Bool → List α → List UInt8 → Bool → Prop
  | nil (carry : Bool) : Links step carry [] [] carry
  | cons
      {carry next last : Bool}
      {first : α}
      {rest : List α}
      {result : UInt8}
      {results : List UInt8}
      (head : step carry first result next)
      (tail : Links step next rest results last) :
      Links step carry (first :: rest) (result :: results) last

variable
  {work : ByteWork α}
  {step : Bool → α → UInt8 → Bool → Prop}
  {carry last : Bool}
  {inputs : List α}
  {results : List UInt8}

theorem Chain.mono
    (monotone : work.Monotone)
    {property other : List UInt8 → Bool → Prop}
    (chain : work.Chain carry inputs property)
    (implies : ∀ results last, property results last → other results last) :
    work.Chain carry inputs other := by
  induction inputs generalizing carry property other with
  | nil => exact implies _ _ chain
  | cons first rest inductionHypothesis =>
      refine monotone _ _ _ _ chain fun result flags reached => ?_
      exact inductionHypothesis reached fun results last =>
        implies (result :: results) last

/-- What the work does with every input, the chain does with all of them. -/
theorem chain_links
    (monotone : work.Monotone)
    (inputs : List α)
    (links :
      ∀ input ∈ inputs, ∀ carry,
        work carry input fun result flags =>
          step carry input result flags.carry)
    (carry : Bool) :
    work.Chain carry inputs (Links step carry inputs) := by
  induction inputs generalizing carry with
  | nil => exact .nil carry
  | cons first rest inductionHypothesis =>
      have here := links first (.head _) carry
      refine monotone _ _ _ _ here fun result flags head => ?_
      have behind :=
        inductionHypothesis (fun input member => links input (.tail _ member))
          flags.carry
      exact behind.mono monotone fun results last tail => .cons head tail

theorem ChainAfter.mono
    {beginning : ByteWork α}
    (monotoneBeginning : beginning.Monotone)
    (monotone : work.Monotone)
    {first : α}
    {property other : List UInt8 → Bool → Prop}
    (chain : beginning.ChainAfter work carry first inputs property)
    (implies : ∀ results last, property results last → other results last) :
    beginning.ChainAfter work carry first inputs other := by
  refine monotoneBeginning _ _ _ _ chain fun result flags reached => ?_
  exact reached.mono monotone fun results last =>
    implies (result :: results) last

/-- The chain links what its beginning has left, as if another carry had come in. -/
theorem chainAfter_links
    {beginning : ByteWork α}
    (monotoneBeginning : beginning.Monotone)
    (monotone : work.Monotone)
    {first : α}
    {entering : Bool}
    (begins :
      beginning carry first fun result flags =>
        step entering first result flags.carry)
    (rest : List α)
    (links :
      ∀ input ∈ rest, ∀ carry,
        work carry input fun result flags =>
          step carry input result flags.carry) :
    beginning.ChainAfter work carry first rest
      (Links step entering (first :: rest)) := by
  refine monotoneBeginning _ _ _ _ begins fun result flags head => ?_
  have behind := chain_links monotone rest links flags.carry
  exact behind.mono monotone fun results last tail => .cons head tail

/-- What every step says of its result holds of all the results. -/
theorem Links.forall_results
    (links : Links step carry inputs results last)
    {property : UInt8 → Prop}
    (gives :
      ∀ {carry input result next},
        step carry input result next → property result) :
    ∀ result ∈ results, property result := by
  induction links with
  | nil => nofun
  | cons head tail inductionHypothesis =>
      exact List.forall_mem_cons.mpr ⟨gives head, inductionHypothesis⟩

end ByteWork

namespace Numeral

/-- Two digits and a carry give a digit and the carry that is left. -/
def Adds
    (numeral : Numeral)
    (carry : Bool)
    (pair : UInt8 × UInt8)
    (result : UInt8)
    (next : Bool) :
    Prop :=
  numeral.Valid result ∧
    numeral.digit result + numeral.base * next.toNat =
      numeral.digit pair.1 + numeral.digit pair.2 + carry.toNat

/-- A digit less another and a borrow gives a digit and the borrow that is left. -/
def Subtracts
    (numeral : Numeral)
    (borrow : Bool)
    (pair : UInt8 × UInt8)
    (result : UInt8)
    (next : Bool) :
    Prop :=
  numeral.Valid result ∧
    numeral.digit pair.1 + numeral.base * next.toNat =
      numeral.digit result + numeral.digit pair.2 + borrow.toNat

variable
  {numeral : Numeral}
  {work : ByteWork (UInt8 × UInt8)}
  {carry last : Bool}
  {pairs : List (UInt8 × UInt8)}
  {results : List UInt8}

theorem isSum_of_links
    (links : ByteWork.Links numeral.Adds carry pairs results last) :
    numeral.IsSum carry pairs results last := by
  refine Columns.isSum ?_ (links.forall_results And.left)
  induction links with
  | nil carry => exact .nil carry
  | cons head tail inductionHypothesis =>
      exact .cons head.2 inductionHypothesis

theorem isDifference_of_links
    (links : ByteWork.Links numeral.Subtracts carry pairs results last) :
    numeral.IsDifference carry pairs results last := by
  refine Columns.isDifference ?_ (links.forall_results And.left)
  induction links with
  | nil carry => exact .nil carry
  | cons head tail inductionHypothesis =>
      exact .cons head.2 inductionHypothesis

/-- Work that adds two digits adds two numbers. -/
theorem chain_isSum
    (monotone : work.Monotone)
    (adds :
      ∀ pair ∈ pairs, ∀ carry,
        work carry pair fun result flags =>
          numeral.Adds carry pair result flags.carry)
    (carry : Bool) :
    work.Chain carry pairs (numeral.IsSum carry pairs) :=
  (ByteWork.chain_links monotone pairs adds carry).mono monotone
    fun _ _ => isSum_of_links

/-- Work that subtracts a digit from another subtracts numbers. -/
theorem chain_isDifference
    (monotone : work.Monotone)
    (subtracts :
      ∀ pair ∈ pairs, ∀ borrow,
        work borrow pair fun result flags =>
          numeral.Subtracts borrow pair result flags.carry)
    (borrow : Bool) :
    work.Chain borrow pairs (numeral.IsDifference borrow pairs) :=
  (ByteWork.chain_links monotone pairs subtracts borrow).mono monotone
    fun _ _ => isDifference_of_links

section Beginning

variable
  {beginning : ByteWork (UInt8 × UInt8)}
  (monotoneBeginning : beginning.Monotone)
  (monotone : work.Monotone)
  {first : UInt8 × UInt8}
  {entering : Bool}
include monotoneBeginning monotone

/-- A chain adds the carry that its beginning adds. -/
theorem chainAfter_isSum
    (begins :
      beginning carry first fun result flags =>
        numeral.Adds entering first result flags.carry)
    (adds :
      ∀ pair ∈ pairs, ∀ carry,
        work carry pair fun result flags =>
          numeral.Adds carry pair result flags.carry) :
    beginning.ChainAfter work carry first pairs
      (numeral.IsSum entering (first :: pairs)) :=
  (ByteWork.chainAfter_links monotoneBeginning monotone begins pairs adds).mono
    monotoneBeginning monotone fun _ _ => isSum_of_links

/-- A chain subtracts the borrow that its beginning subtracts. -/
theorem chainAfter_isDifference
    (begins :
      beginning carry first fun result flags =>
        numeral.Subtracts entering first result flags.carry)
    (subtracts :
      ∀ pair ∈ pairs, ∀ borrow,
        work borrow pair fun result flags =>
          numeral.Subtracts borrow pair result flags.carry) :
    beginning.ChainAfter work carry first pairs
      (numeral.IsDifference entering (first :: pairs)) :=
  (ByteWork.chainAfter_links monotoneBeginning monotone begins pairs
    subtracts).mono monotoneBeginning monotone fun _ _ => isDifference_of_links

end Beginning

end Numeral

end Dmg
