import Dmg.Runner.Options
import Mathlib.Data.Nat.Digits.Lemmas

namespace Dmg

/-!
# The texts that are masks

A text is a mask if it spells a number that fits in a byte: in hexadecimal digits behind
`0x` or `0X`, in decimal digits otherwise, in either case perhaps behind a plus sign.  Of
any other text the digits in front of the first other character decide why it is refused:
for its size if their number is too large already, and for that character otherwise.
-/

namespace Numeral

/-- The digits in the order of their values, in small letters. -/
def smallDigits : List Char :=
  "0123456789abcdef".toList

/-- The digits in the order of their values, in capital letters. -/
def capitalDigits : List Char :=
  "0123456789ABCDEF".toList

/-- The character is the digit of a value in the radix, in a letter of either case. -/
def IsDigit
    (radix : Nat)
    (character : Char)
    (value : Nat) :
    Prop :=
  value < radix ∧
    (smallDigits[value]? = some character ∨
      capitalDigits[value]? = some character)

/-- The characters are digits, and this is the number that they write in the radix. -/
def Spells
    (radix : Nat)
    (characters : List Char)
    (number : Nat) :
    Prop :=
  ∃ values,
    List.Forall₂ (IsDigit radix) characters values ∧
      number = Nat.ofDigits radix values.reverse

/-- The characters begin with no digit. -/
def NoDigitAhead
    (radix : Nat)
    (characters : List Char) :
    Prop :=
  ∀ character value,
    characters.head? = some character → ¬ IsDigit radix character value

/-- The longest run of digits that the characters begin with writes this number. -/
def BeginsWith
    (radix : Nat)
    (characters : List Char)
    (number : Nat) :
    Prop :=
  ∃ run rest,
    characters = run ++ rest ∧
      Spells radix run number ∧ NoDigitAhead radix rest

/-- The digits of a numeral are the longest run that it begins with. -/
theorem Spells.beginsWith
    {radix number : Nat}
    {characters : List Char}
    (spells : Spells radix characters number) :
    BeginsWith radix characters number :=
  ⟨characters, [], (List.append_nil characters).symm, spells, nofun⟩

/-- The characters without a plus sign in front of them. -/
def unsigned : List Char → List Char
  | '+' :: rest => rest
  | characters => characters

section Digits

variable {character : Char} {value : Nat}

/-- No digit has a place behind the small letters. -/
theorem toNat_lt_of_digitValue?
    (known : digitValue? character = some value) :
    character.toNat < 128 := by
  have bounded (last : Char) (inTable : last ≤ 'z') (below : character ≤ last) :
      character.toNat < 128 := by
    have least := UInt32.le_iff_toNat_le.mp (Char.le_trans below inTable)
    exact Nat.lt_of_le_of_lt least (by decide)
  unfold digitValue? at known
  split at known
  case isTrue decimal => exact bounded '9' (by decide) decimal.2
  case isFalse =>
    split at known
    case isTrue small => exact bounded 'z' (by decide) small.2
    case isFalse =>
      split at known
      case isTrue capital => exact bounded 'Z' (by decide) capital.2
      case isFalse => cases known

/-- The values of the digits are their places in the two tables. -/
theorem digitValue?_eq_some_iff (small : value < 16) :
    digitValue? character = some value ↔
      smallDigits[value]? = some character ∨
        capitalDigits[value]? = some character := by
  constructor
  · intro known
    have listed :
        ∀ place : Fin 128, ∀ value : Fin 16,
          digitValue? (Char.ofNat place) = some value.val →
            smallDigits[value.val]? = some (Char.ofNat place) ∨
              capitalDigits[value.val]? = some (Char.ofNat place) := by
      decide +kernel
    have place :=
      listed ⟨character.toNat, toNat_lt_of_digitValue? known⟩ ⟨value, small⟩
    rw [Char.ofNat_toNat] at place
    exact place known
  · intro listed
    have known :
        ∀ value : Fin 16,
          smallDigits[value.val]?.bind digitValue? = some value.val ∧
            capitalDigits[value.val]?.bind digitValue? = some value.val := by
      decide +kernel
    rcases listed with inSmall | inCapital
    · have found := (known ⟨value, small⟩).1
      rwa [inSmall] at found
    · have found := (known ⟨value, small⟩).2
      rwa [inCapital] at found

theorem digit?_eq_some_iff
    {radix : Nat}
    (atMost : radix ≤ 16) :
    digit? radix character = some value ↔ IsDigit radix character value := by
  unfold digit? IsDigit
  rw [Option.filter_eq_some_iff, decide_eq_true_eq, and_comm]
  exact and_congr_right fun below =>
    digitValue?_eq_some_iff (Nat.lt_of_lt_of_le below atMost)

end Digits

/-- The number that a numeral has reached when it goes on with digits of these values. -/
def reached
    (radix start : Nat)
    (values : List Nat) :
    Nat :=
  start * radix ^ values.length + Nat.ofDigits radix values.reverse

section Reading

variable
  {radix greatest start : Nat}
  {characters run rest : List Char}
  {values : List Nat}

theorem reached_zero (radix : Nat) (values : List Nat) :
    reached radix 0 values = Nat.ofDigits radix values.reverse := by
  simp [reached]

theorem reached_cons (value : Nat) :
    reached radix start (value :: values) =
      reached radix (start * radix + value) values := by
  unfold reached
  rw [List.reverse_cons, Nat.ofDigits_append, Nat.ofDigits_singleton,
    List.length_reverse, List.length_cons, pow_succ]
  ring

/-- Further digits never make a number smaller. -/
theorem le_reached
    (positive : 0 < radix)
    (values : List Nat) :
    start ≤ reached radix start values :=
  Nat.le_trans
    (Nat.le_mul_of_pos_right start (Nat.pow_pos positive))
    (Nat.le_add_right _ _)

/--
Reading goes through a run of digits.  If their number is too large it is refused for
that, whatever comes behind; otherwise the run has to be the whole text.
-/
theorem readDigits_eq
    (atMost : radix ≤ 16)
    (digits : List.Forall₂ (IsDigit radix) run values)
    (ends : NoDigitAhead radix rest)
    (fits : start ≤ greatest) :
    readDigits radix greatest start (run ++ rest) =
      if greatest < reached radix start values then
        .error .tooLarge
      else if rest = [] then
        .ok (reached radix start values)
      else
        .error .invalidDigit := by
  induction digits generalizing start with
  | nil =>
      have same : reached radix start [] = start := by
        simp [reached]
      rw [same, if_neg (Nat.not_lt.mpr fits), List.nil_append]
      cases rest with
      | nil => rfl
      | cons character others =>
          have unread : digit? radix character = none :=
            Option.eq_none_iff_forall_ne_some.mpr fun value known =>
              ends character value rfl ((digit?_eq_some_iff atMost).mp known)
          rw [readDigits, unread]
          rfl
  | @cons character value run values isDigit _ inductionHypothesis =>
      have positive : 0 < radix :=
        Nat.lt_of_le_of_lt (Nat.zero_le value) isDigit.1
      rw [List.cons_append, readDigits,
        (digit?_eq_some_iff atMost).mpr isDigit, reached_cons]
      -- Once the number is too large, no further digit makes it small enough again.
      by_cases exceeds : greatest < start * radix + value
      · have stillOver :=
          Nat.lt_of_lt_of_le exceeds (le_reached positive values)
        simp only [if_pos exceeds, if_pos stillOver]
      · simp only [if_neg exceeds]
        exact inductionHypothesis (Nat.le_of_not_lt exceeds)

/-- Every text begins with a longest run of digits, which may be empty. -/
theorem exists_run (atMost : radix ≤ 16) (characters : List Char) :
    ∃ run rest values,
      characters = run ++ rest ∧
        List.Forall₂ (IsDigit radix) run values ∧
        NoDigitAhead radix rest := by
  induction characters with
  | nil => exact ⟨[], [], [], rfl, .nil, nofun⟩
  | cons character others inductionHypothesis =>
      cases known : digit? radix character with
      | none =>
          refine ⟨[], _, [], rfl, .nil, ?_⟩
          intro first value isFirst isDigit
          cases isFirst
          rw [(digit?_eq_some_iff atMost).mpr isDigit] at known
          cases known
      | some value =>
          have isDigit := (digit?_eq_some_iff atMost).mp known
          obtain ⟨run, rest, values, rfl, digits, ends⟩ := inductionHypothesis
          exact
            ⟨character :: run, rest, value :: values, rfl,
              .cons isDigit digits, ends⟩

/-- The digits that are read write the number, which is not too large. -/
theorem readDigits_eq_ok_iff
    (atMost : radix ≤ 16)
    {number : Nat} :
    readDigits radix greatest 0 characters = .ok number ↔
      Spells radix characters number ∧ number ≤ greatest := by
  constructor
  · intro accepted
    obtain ⟨run, rest, values, rfl, digits, ends⟩ :=
      exists_run atMost characters
    rw [readDigits_eq atMost digits ends (Nat.zero_le _),
      reached_zero] at accepted
    split at accepted
    case isTrue => cases accepted
    case isFalse fits =>
      split at accepted
      case isFalse => cases accepted
      case isTrue complete =>
        cases accepted
        rw [complete, List.append_nil]
        exact ⟨⟨values, digits, rfl⟩, Nat.le_of_not_lt fits⟩
  · rintro ⟨⟨values, digits, rfl⟩, fits⟩
    have complete : NoDigitAhead radix [] := nofun
    have read := readDigits_eq atMost digits complete (Nat.zero_le greatest)
    rwa [List.append_nil, reached_zero, if_neg (Nat.not_lt.mpr fits),
      if_pos rfl] at read

/-- A number is too large if the digits in front of all else write too large a number. -/
theorem readDigits_eq_tooLarge_iff (atMost : radix ≤ 16) :
    readDigits radix greatest 0 characters = .error .tooLarge ↔
      ∃ number, BeginsWith radix characters number ∧ greatest < number := by
  constructor
  · intro refused
    obtain ⟨run, rest, values, rfl, digits, ends⟩ :=
      exists_run atMost characters
    rw [readDigits_eq atMost digits ends (Nat.zero_le _),
      reached_zero] at refused
    split at refused
    case isTrue exceeds =>
      exact ⟨_, ⟨run, rest, rfl, ⟨values, digits, rfl⟩, ends⟩, exceeds⟩
    case isFalse => split at refused <;> cases refused
  · rintro ⟨number, ⟨run, rest, rfl, ⟨values, digits, rfl⟩, ends⟩, exceeds⟩
    rw [readDigits_eq atMost digits ends (Nat.zero_le _), reached_zero,
      if_pos exceeds]

/-- Reading digits never complains of an empty text. -/
theorem readDigits_ne_empty :
    readDigits radix greatest start characters ≠ .error .empty := by
  fun_induction readDigits radix greatest start characters with
  | case4 _ _ _ _ _ _ inductionHypothesis => exact inductionHypothesis
  | _ => simp

/-- A sign by itself is no numeral; apart from that it makes no difference. -/
theorem read_eq (radix greatest : Nat) (text : List Char) :
    read radix greatest text =
      if text = [] then
        .error .empty
      else if unsigned text = [] then
        .error .invalidDigit
      else
        readDigits radix greatest 0 (unsigned text) := by
  unfold read
  split
  · rfl
  · rfl
  · rename_i digits notAlone
    have notEmpty : digits ≠ [] := by
      rintro rfl
      exact notAlone rfl
    simp [unsigned, notEmpty]
  · rename_i notEmpty _ noSign
    have same : unsigned text = text := by
      unfold unsigned
      split
      · exact absurd rfl (noSign _)
      · rfl
    rw [same, if_neg notEmpty, if_neg notEmpty]

section Numerals

variable {text : List Char}

theorem read_eq_ok_iff
    (atMost : radix ≤ 16)
    {number : Nat} :
    read radix greatest text = .ok number ↔
      unsigned text ≠ [] ∧
        Spells radix (unsigned text) number ∧ number ≤ greatest := by
  rw [read_eq, ← readDigits_eq_ok_iff atMost]
  split
  case isTrue empty => simp [empty, unsigned]
  case isFalse =>
    split
    case isTrue empty => simp [empty]
    case isFalse notEmpty => simp [notEmpty]

theorem read_eq_empty_iff :
    read radix greatest text = .error .empty ↔ text = [] := by
  rw [read_eq]
  split
  case isTrue empty => simp [empty]
  case isFalse notEmpty =>
    split
    case isTrue => simp [notEmpty]
    case isFalse => simp [notEmpty, readDigits_ne_empty]

theorem read_eq_tooLarge_iff (atMost : radix ≤ 16) :
    read radix greatest text = .error .tooLarge ↔
      ∃ number,
        BeginsWith radix (unsigned text) number ∧ greatest < number := by
  rw [read_eq, ← readDigits_eq_tooLarge_iff atMost]
  split
  case isTrue empty => simp [empty, unsigned, readDigits]
  case isFalse =>
    split
    case isTrue empty => simp [empty, readDigits]
    case isFalse => rfl

/-- All other texts that are refused have a character that is no digit, or only a sign. -/
theorem read_eq_invalidDigit_iff :
    read radix greatest text = .error .invalidDigit ↔
      (∀ number, read radix greatest text ≠ .ok number) ∧
        read radix greatest text ≠ .error .empty ∧
        read radix greatest text ≠ .error .tooLarge := by
  cases read radix greatest text with
  | ok number => simp
  | error cause => cases cause <;> simp

end Numerals

end Reading

end Numeral

namespace Mask

/-- The text tells that its digits are hexadecimal. -/
def Hexadecimal (text : List Char) : Prop :=
  ['0', 'x'] <+: text ∨ ['0', 'X'] <+: text

instance (text : List Char) : Decidable (Hexadecimal text) :=
  inferInstanceAs (Decidable (_ ∨ _))

/-- The radix of the digits of a mask. -/
def radix (text : List Char) : Nat :=
  if Hexadecimal text then 16 else 10

/-- The digits of a mask, with the sign that may stand in front of them. -/
def digits (text : List Char) : List Char :=
  if Hexadecimal text then text.drop 2 else text

/-- The text is refused for the reason, and the message quotes it. -/
def Refuses
    (text reason : String) :
    Prop :=
  ∃ error,
    parse text = .error error ∧
      error.message = "invalid input mask '" ++ text ++ "': " ++ reason

theorem radix_le (text : List Char) : radix text ≤ 16 := by
  unfold radix
  split <;> decide

theorem readNumber_eq (text : List Char) :
    readNumber text = Numeral.read (radix text) greatest (digits text) := by
  unfold readNumber
  split
  · rfl
  · rfl
  · rename_i notSmall notCapital
    have decimal : ¬ Hexadecimal text := by
      rintro (⟨rest, rfl⟩ | ⟨rest, rfl⟩)
      · exact notSmall rest rfl
      · exact notCapital rest rfl
    rw [radix, digits, if_neg decimal, if_neg decimal]

section Outcomes

variable {text : String}

/-- The number of a mask fits in a byte, so the byte is that number. -/
theorem parse_eq_ok_iff {mask : UInt8} :
    parse text = .ok mask ↔ readNumber text.toList = .ok mask.toNat := by
  unfold parse
  cases read : readNumber text.toList with
  | error cause => simp
  | ok number =>
      rw [readNumber_eq] at read
      have fits : number ≤ 255 :=
        ((Numeral.read_eq_ok_iff (radix_le _)).mp read).2.2
      have isByte : (UInt8.ofNat number).toNat = number := by
        rw [UInt8.toNat_ofNat']
        omega
      rw [Except.ok.injEq, Except.ok.injEq, ← UInt8.toNat_inj, isByte]

/-- The message tells the cause. -/
theorem refuses_message_iff (cause : Numeral.Error) :
    Refuses text cause.message ↔ readNumber text.toList = .error cause := by
  have distinct (other : Numeral.Error) :
      other.message = cause.message ↔ other = cause := by
    cases other <;> cases cause <;> simp [Numeral.Error.message]
  unfold Refuses parse
  cases readNumber text.toList with
  | ok number => simp
  | error other =>
      constructor
      · rintro ⟨error, refused, told⟩
        cases refused
        have sameCause : other.message = cause.message :=
          (String.append_right_inj _).mp told
        rw [(distinct other).mp sameCause]
      · intro same
        cases same
        exact ⟨⟨text, cause⟩, rfl, rfl⟩

/--
A mask is written in hexadecimal digits behind `0x` or `0X` and in decimal digits
otherwise, perhaps behind a plus sign; there is at least one digit, and the number is the
mask.  A text without digits and sign is refused as empty, one whose first digits, up to
the first other character, already write more than 255 as too large, and every other one
for a character that is no digit.  The message quotes the text as it is.
-/
theorem parse_follows_grammar (text : String) :
    let radix := radix text.toList
    let digits := digits text.toList
    let unsigned := Numeral.unsigned digits
    (∀ mask,
      parse text = .ok mask ↔
        unsigned ≠ [] ∧ Numeral.Spells radix unsigned mask.toNat) ∧
    (Refuses text "cannot parse integer from empty string" ↔
      digits = []) ∧
    (Refuses text "number too large to fit in target type" ↔
      ∃ number,
        Numeral.BeginsWith radix unsigned number ∧ 255 < number) ∧
    (Refuses text "invalid digit found in string" ↔
      (unsigned = [] ∨ ∀ number, ¬ Numeral.Spells radix unsigned number) ∧
        digits ≠ [] ∧
        ∀ number,
          Numeral.BeginsWith radix unsigned number → number ≤ 255) := by
  intro radix digits unsigned
  have accepts (number : Nat) :
      readNumber text.toList = .ok number ↔
        unsigned ≠ [] ∧ Numeral.Spells radix unsigned number ∧
          number ≤ greatest := by
    rw [readNumber_eq]
    exact Numeral.read_eq_ok_iff (radix_le _)
  have empty : readNumber text.toList = .error .empty ↔ digits = [] := by
    rw [readNumber_eq]
    exact Numeral.read_eq_empty_iff
  have tooLarge :
      readNumber text.toList = .error .tooLarge ↔
        ∃ number,
          Numeral.BeginsWith radix unsigned number ∧ 255 < number := by
    rw [readNumber_eq]
    exact Numeral.read_eq_tooLarge_iff (radix_le _)
  refine ⟨?_, ?_, ?_, ?_⟩
  · intro mask
    have fits : mask.toNat ≤ greatest := Nat.le_of_lt_succ mask.toNat_lt
    rw [parse_eq_ok_iff, accepts]
    simp [fits]
  · exact (refuses_message_iff .empty).trans empty
  · exact (refuses_message_iff .tooLarge).trans tooLarge
  · have remaining :
        readNumber text.toList = .error .invalidDigit ↔
          (∀ number, readNumber text.toList ≠ .ok number) ∧
            readNumber text.toList ≠ .error .empty ∧
            readNumber text.toList ≠ .error .tooLarge := by
      rw [readNumber_eq]
      exact Numeral.read_eq_invalidDigit_iff
    refine (refuses_message_iff .invalidDigit).trans ?_
    simp only [remaining, ne_eq, accepts, empty, tooLarge]
    constructor
    · rintro ⟨notAccepted, notEmpty, notTooLarge⟩
      have small (number : Nat)
          (begins : Numeral.BeginsWith radix unsigned number) :
          number ≤ 255 :=
        Nat.le_of_not_lt fun exceeds => notTooLarge ⟨number, begins, exceeds⟩
      refine ⟨?_, notEmpty, small⟩
      by_cases alone : unsigned = []
      · exact .inl alone
      · exact .inr fun number spells =>
          notAccepted number ⟨alone, spells, small number spells.beginsWith⟩
    · rintro ⟨noNumeral, notEmpty, small⟩
      refine ⟨?_, notEmpty, ?_⟩
      · rintro number ⟨notAlone, spells, -⟩
        exact noNumeral.elim notAlone fun none => none number spells
      · rintro ⟨number, begins, exceeds⟩
        exact Nat.not_lt.mpr (small number begins) exceeds

/-- The third digit makes the number too large, so the letter behind it is not reached. -/
example : parse "+256x" = .error ⟨"+256x", .tooLarge⟩ := by
  decide +kernel

end Outcomes

end Mask

end Dmg
