import Dmg.Text.Numeral

namespace Dmg

/-!
# The command line

The command line names a ROM file and may bound the run, ask for a trace and hold
buttons down.  The buttons are given as a mask, a decimal number, or a hexadecimal
number after `0x` or `0X`, that has to fit in a byte.
-/

/-- Why a text is no mask, with the text itself. -/
structure MaskError where
  text : String
  cause : Numeral.Error
  deriving Repr, DecidableEq

namespace MaskError

/-- The wording of a mask error. -/
def message (error : MaskError) : String :=
  "invalid input mask '" ++ error.text ++ "': " ++ error.cause.message

end MaskError

namespace Mask

/-- The greatest mask. -/
def greatest : Nat :=
  255

/-- Read the number of a mask in the radix that its first characters tell. -/
def readNumber (text : List Char) : Except Numeral.Error Nat :=
  match text with
  | '0' :: 'x' :: digits => Numeral.read 16 greatest digits
  | '0' :: 'X' :: digits => Numeral.read 16 greatest digits
  | digits => Numeral.read 10 greatest digits

/-- Read a mask. -/
def parse (text : String) : Except MaskError UInt8 :=
  match readNumber text.toList with
  | .ok number => .ok (UInt8.ofNat number)
  | .error cause => .error ⟨text, cause⟩

end Mask

/-!
## The arguments

An option takes its value from the same argument after an equals sign, or else from the
next argument, which then must not look like an option.  After the argument of two
dashes, no argument is an option.
-/

/-- An option that takes a value. -/
inductive ValueOption where
  | steps
  | cycles
  | input
  deriving Repr, DecidableEq

/-- Why a command line is refused. -/
inductive UsageError where
  | unknownOption (argument : String)
  | missingValue (option : ValueOption)
  /-- A value was given to an option that takes none. -/
  | unexpectedValue (argument : String)
  | badNumber (text : String) (cause : Numeral.Error)
  | badMask (error : MaskError)
  | repeatedOption (name : String)
  | extraArgument (argument : String)
  | emptyPath
  | missingPath
  deriving Repr, DecidableEq

namespace ValueOption

/-- The name of an option, without its dashes. -/
def name : ValueOption → String
  | .steps => "steps"
  | .cycles => "cycles"
  | .input => "input"

/-- The option of a name. -/
def ofName? (text : String) : Option ValueOption :=
  [steps, cycles, input].find? (·.name == text)

end ValueOption

namespace UsageError

/-- The wording of a usage error. -/
def message : UsageError → String
  | .unknownOption argument => "unexpected argument '" ++ argument ++ "'"
  | .missingValue option =>
      "a value is required for '--" ++ option.name ++ "'"
  | .unexpectedValue argument => "unexpected value in '" ++ argument ++ "'"
  | .badNumber text cause =>
      "invalid value '" ++ text ++ "': " ++ cause.message
  | .badMask error => error.message
  | .repeatedOption name =>
      "'--" ++ name ++ "' cannot be used more than once"
  | .extraArgument argument => "unexpected argument '" ++ argument ++ "'"
  | .emptyPath => "the path of the ROM file is empty"
  | .missingPath => "the path of a ROM file is required"

/-- The exit status of a command line that is refused. -/
def status : UInt32 :=
  2

end UsageError

/-- What one or two arguments of a command line say. -/
inductive Setting where
  | path (text : String)
  | trace
  | value (option : ValueOption) (text : String)
  deriving Repr, DecidableEq

namespace Setting

/-- Whether an argument looks like an option; a single dash does not. -/
def looksLikeOption (argument : String) : Bool :=
  match argument.toList with
  | '-' :: _ :: _ => true
  | _ => false

/-- The name and, after an equals sign, the value in a long option. -/
def splitLong? (argument : String) : Option (String × Option String) :=
  match argument.toList with
  | '-' :: '-' :: rest =>
      let name := String.ofList (rest.takeWhile (· != '='))
      match rest.dropWhile (· != '=') with
      | [] => some (name, none)
      | _ :: text => some (name, some (String.ofList text))
  | _ => none

/-- A setting and how many arguments after the first it was read from. -/
structure Taken where
  setting : Setting
  following : Nat
  deriving Repr, DecidableEq

/-- The value of an option: attached to it, or else the next argument. -/
def takeValue
    (option : ValueOption)
    (attached next : Option String) :
    Except UsageError Taken :=
  match attached, next with
  | some text, _ => .ok ⟨value option text, 0⟩
  | none, none => .error (.missingValue option)
  | none, some text =>
      if looksLikeOption text then
        .error (.missingValue option)
      else
        .ok ⟨value option text, 1⟩

/-- Read a long option, given its parts. -/
def takeLong
    (argument name : String)
    (attached next : Option String) :
    Except UsageError Taken :=
  if name = "trace" then
    match attached with
    | none => .ok ⟨trace, 0⟩
    | some _ => .error (.unexpectedValue argument)
  else
    match ValueOption.ofName? name with
    | some option => takeValue option attached next
    | none => .error (.unknownOption argument)

/-- Read one argument, and the one after it if it is the value of an option. -/
def take
    (argument : String)
    (next : Option String) :
    Except UsageError Taken :=
  if looksLikeOption argument then
    match splitLong? argument with
    | some (name, attached) => takeLong argument name attached next
    | none => .error (.unknownOption argument)
  else
    .ok ⟨path argument, 0⟩

/-- Read the arguments of a command line. -/
def ofArguments : List String → Except UsageError (List Setting)
  | [] => .ok []
  | argument :: rest =>
      if argument = "--" then
        .ok (rest.map path)
      else do
        let taken ← take argument rest.head?
        return taken.setting :: (← ofArguments (rest.drop taken.following))
termination_by arguments => arguments.length
decreasing_by
  simp only [List.length_drop, List.length_cons]
  omega

end Setting

/-- What a command line asks for. -/
structure Options where
  path : String
  steps : Option UInt64
  cycles : Option UInt64
  trace : Bool
  input : UInt8
  deriving Repr, DecidableEq

namespace Options

/-- What a command line has asked for so far. -/
structure Draft where
  path : Option String
  steps : Option UInt64
  cycles : Option UInt64
  trace : Bool
  input : Option UInt8
  deriving Repr, DecidableEq

namespace Draft

/-- Nothing has been asked for. -/
def empty : Draft where
  path := none
  steps := none
  cycles := none
  trace := false
  input := none

/-- Read a bound on the run. -/
def readBound (text : String) : Except UsageError UInt64 :=
  match Numeral.read 10 (UInt64.size - 1) text.toList with
  | .ok number => .ok (UInt64.ofNat number)
  | .error cause => .error (.badNumber text cause)

/-- Read the buttons to hold down. -/
def readInput (text : String) : Except UsageError UInt8 :=
  match Mask.parse text with
  | .ok mask => .ok mask
  | .error error => .error (.badMask error)

/-- Refuse an option that has been given before. -/
def refuseRepeated
    (name : String)
    (given : Bool) :
    Except UsageError Unit :=
  if given then
    .error (.repeatedOption name)
  else
    .ok ()

/-- Take up a setting. -/
def add
    (draft : Draft) :
    Setting →
    Except UsageError Draft
  | .path text => do
      if text.isEmpty then
        throw .emptyPath
      if draft.path.isSome then
        throw (.extraArgument text)
      return { draft with path := some text }
  | .trace => do
      refuseRepeated "trace" draft.trace
      return { draft with trace := true }
  | .value .steps text => do
      refuseRepeated "steps" draft.steps.isSome
      return { draft with steps := some (← readBound text) }
  | .value .cycles text => do
      refuseRepeated "cycles" draft.cycles.isSome
      return { draft with cycles := some (← readBound text) }
  | .value .input text => do
      refuseRepeated "input" draft.input.isSome
      return { draft with input := some (← readInput text) }

/-- What has been asked for, once the path is known; no buttons unless told. -/
def finish (draft : Draft) : Except UsageError Options :=
  match draft.path with
  | none => .error .missingPath
  | some path =>
      .ok {
        path := path
        steps := draft.steps
        cycles := draft.cycles
        trace := draft.trace
        input := draft.input.getD 0
      }

end Draft

/-- Read a command line. -/
def ofArguments (arguments : List String) : Except UsageError Options := do
  let settings ← Setting.ofArguments arguments
  let draft ← settings.foldlM Draft.add .empty
  draft.finish

end Options

end Dmg
