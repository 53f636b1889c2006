namespace Dmg

/-!
# Titles as text

A byte string is read as UTF-8 from left to right.  Where it is not well formed,
the longest run of bytes that some well-formed character could begin with (or a
single byte, if there is none) is read as one replacement character U+FFFD.  Blank
characters are then removed from both ends.
-/

namespace Utf8

/-- The character that stands for a damaged run of bytes. -/
def replacement : Char :=
  Char.ofNat 0xFFFD

/-- The inclusive range that a continuation byte has to lie in. -/
structure Range where
  least : UInt8
  greatest : UInt8
  deriving Repr, DecidableEq

namespace Range

/-- The range of a continuation byte that no rule narrows. -/
def continuation : Range :=
  ⟨0x80, 0xBF⟩

/-- Whether a byte lies in the range. -/
def contains
    (range : Range)
    (byte : UInt8) :
    Bool :=
  range.least ≤ byte && byte ≤ range.greatest

end Range

/-- What the first byte of a character says about the rest of it. -/
structure Lead where
  /-- The bits of the code point that the first byte carries. -/
  bits : Nat
  /-- The ranges of the bytes that have to follow. -/
  tail : List Range
  deriving Repr, DecidableEq

/--
The reading of a first byte.  The narrowed second ranges rule out overlong forms,
surrogates and code points above U+10FFFF.
-/
def lead? (byte : UInt8) : Option Lead :=
  if byte < 0x80 then
    some ⟨byte.toNat, []⟩
  else if byte < 0xC2 then
    none
  else if byte < 0xE0 then
    some ⟨byte.toNat - 0xC0, [.continuation]⟩
  else if byte < 0xF0 then
    let second : Range :=
      if byte = 0xE0 then
        ⟨0xA0, 0xBF⟩
      else if byte = 0xED then
        ⟨0x80, 0x9F⟩
      else
        .continuation
    some ⟨byte.toNat - 0xE0, [second, .continuation]⟩
  else if byte < 0xF5 then
    let second : Range :=
      if byte = 0xF0 then
        ⟨0x90, 0xBF⟩
      else if byte = 0xF4 then
        ⟨0x80, 0x8F⟩
      else
        .continuation
    some ⟨byte.toNat - 0xF0, [second, .continuation, .continuation]⟩
  else
    none

/--
Read the bytes that complete a character.  The first component is the code point,
or nothing if a byte is missing or out of its range; the second is what remains
after the bytes that fitted.
-/
def complete :
    List Range →
    Nat →
    List UInt8 →
    Option Nat × List UInt8
  | [], bits, bytes => (some bits, bytes)
  | _ :: _, _, [] => (none, [])
  | range :: ranges, bits, byte :: bytes =>
      if range.contains byte then
        complete ranges (64 * bits + (byte.toNat - 0x80)) bytes
      else
        (none, byte :: bytes)

/-- Completing a character never lengthens the text that remains. -/
theorem length_complete_le
    (ranges : List Range)
    (bits : Nat)
    (bytes : List UInt8) :
    (complete ranges bits bytes).2.length ≤ bytes.length := by
  fun_induction complete ranges bits bytes with
  | case1 => exact Nat.le_refl _
  | case2 => exact Nat.le_refl _
  | case3 _ _ _ _ _ _ inductionHypothesis =>
      exact Nat.le_succ_of_le inductionHypothesis
  | case4 => exact Nat.le_refl _

/-- The characters of a byte string, with damaged runs replaced. -/
def decodeLossy : List UInt8 → List Char
  | [] => []
  | byte :: bytes =>
      match lead? byte with
      | none => replacement :: decodeLossy bytes
      | some lead =>
          let completed := complete lead.tail lead.bits bytes
          (completed.1.elim replacement Char.ofNat) ::
            decodeLossy completed.2
termination_by bytes => bytes.length
decreasing_by
  · exact Nat.lt_succ_self _
  · exact Nat.lt_succ_of_le (length_complete_le _ _ _)

/-- A damaged run of one, two and three bytes becomes one replacement character. -/
example :
    decodeLossy [0x41, 0xFF, 0xE2, 0x82, 0x42, 0xF0, 0x9F, 0x98] =
      ['A', replacement, replacement, 'B', replacement] := by
  cbv

end Utf8

/-!
## Blank characters

The characters with the property White_Space of the Unicode standard, and the
removal of them from both ends of a text.
-/

namespace Blank

/-- The ranges of code points with the property White_Space, both ends included. -/
def ranges : List (Nat × Nat) :=
  [ (0x0009, 0x000D),
    (0x0020, 0x0020),
    (0x0085, 0x0085),
    (0x00A0, 0x00A0),
    (0x1680, 0x1680),
    (0x2000, 0x200A),
    (0x2028, 0x2029),
    (0x202F, 0x202F),
    (0x205F, 0x205F),
    (0x3000, 0x3000) ]

/-- Whether a character has the property White_Space. -/
def isBlank (character : Char) : Bool :=
  ranges.any fun range =>
    range.1 ≤ character.toNat && character.toNat ≤ range.2

/-- A text without the blank characters at its two ends. -/
def trim (characters : List Char) : List Char :=
  ((characters.dropWhile isBlank).reverse.dropWhile isBlank).reverse

/-- The property has twenty-five characters. -/
example :
    (ranges.map fun range => range.2 + 1 - range.1).sum = 25 := by
  decide

end Blank

end Dmg
