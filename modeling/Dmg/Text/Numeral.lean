namespace Dmg

/-!
# Numbers as text

Addresses, opcodes and register values are written with a fixed number of hexadecimal
digits, most significant digit first and padded with zeros.  Numbers are read in any
radix, up to a bound.
-/

namespace Hex

/-- Which letters stand for the digits above nine. -/
inductive Letters where
  | lower
  | upper
  deriving Repr, DecidableEq

namespace Letters

/-- The code point of the digit ten. -/
def first : Letters → Nat
  | .lower => 97
  | .upper => 65

end Letters

/-- One digit below sixteen. -/
def digit
    (letters : Letters)
    (value : Nat) :
    Char :=
  if value < 10 then
    Char.ofNat (48 + value)
  else
    Char.ofNat (letters.first + (value - 10))

/-- The lowest `width` hexadecimal digits of a number. -/
def digits
    (letters : Letters) :
    Nat → Nat → List Char
  | 0, _ => []
  | width + 1, value =>
      digits letters width (value / 16) ++ [digit letters (value % 16)]

/-- A byte as two digits. -/
def ofByte
    (letters : Letters)
    (byte : UInt8) :
    String :=
  String.ofList (digits letters 2 byte.toNat)

/-- A word as four digits. -/
def ofWord
    (letters : Letters)
    (word : UInt16) :
    String :=
  String.ofList (digits letters 4 word.toNat)

end Hex

/-!
## Reading bounded numerals

An unsigned numeral in a given radix: digits in either letter case, leading zeros
allowed, one plus sign allowed in front.  Digits are taken from left to right and
the first problem met is the one reported.
-/

namespace Numeral

/-- Why a text is no numeral. -/
inductive Error where
  | empty
  | invalidDigit
  | tooLarge
  deriving Repr, DecidableEq

namespace Error

/-- The wording of a numeral error. -/
def message : Error → String
  | .empty => "cannot parse integer from empty string"
  | .invalidDigit => "invalid digit found in string"
  | .tooLarge => "number too large to fit in target type"

end Error

/-- The value of a digit, letters of either case counting from ten. -/
def digitValue? (character : Char) : Option Nat :=
  if '0' ≤ character ∧ character ≤ '9' then
    some (character.toNat - '0'.toNat)
  else if 'a' ≤ character ∧ character ≤ 'z' then
    some (character.toNat - 'a'.toNat + 10)
  else if 'A' ≤ character ∧ character ≤ 'Z' then
    some (character.toNat - 'A'.toNat + 10)
  else
    none

/-- The value of a character as a digit of the radix. -/
def digit?
    (radix : Nat)
    (character : Char) :
    Option Nat :=
  (digitValue? character).filter (· < radix)

/--
Continue a numeral whose earlier digits have the given value.  A character that
is no digit is reported before the size of the number that it would belong to.
-/
def readDigits
    (radix greatest : Nat) :
    Nat →
    List Char →
    Except Error Nat
  | value, [] => .ok value
  | value, character :: rest =>
      match digit? radix character with
      | none => .error .invalidDigit
      | some digit =>
          if greatest < value * radix + digit then
            .error .tooLarge
          else
            readDigits radix greatest (value * radix + digit) rest

/-- Read a numeral that is at most `greatest`. -/
def read
    (radix greatest : Nat)
    (text : List Char) :
    Except Error Nat :=
  match text with
  | [] => .error .empty
  | ['+'] => .error .invalidDigit
  | '+' :: digits => readDigits radix greatest 0 digits
  | digits => readDigits radix greatest 0 digits

end Numeral

end Dmg
