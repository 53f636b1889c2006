import Dmg.Cartridge.Basic
import Dmg.Notice
import Dmg.Text.Utf8

namespace Dmg

/-!
# Loading a cartridge from its image

The header of a ROM image lies at fixed addresses below 0x0150: a logo, a title
and one-byte codes for the kind of cartridge and the sizes of its memories.
-/

/-- A ROM image. -/
abbrev Image := Array UInt8

namespace Header

/-- The first address after the header. -/
def size : Nat :=
  0x0150

/-- The byte of an image at an address. -/
def byte
    (image : Image)
    (address : Nat) :
    UInt8 :=
  image.getD address 0

/-- So many bytes of an image from an address on. -/
def bytes
    (image : Image)
    (address count : Nat) :
    List UInt8 :=
  (image.extract address (address + count)).toList

/-- The logo that every image carries. -/
def logo : List UInt8 :=
  [ 0xCE, 0xED, 0x66, 0x66, 0xCC, 0x0D, 0x00, 0x0B,
    0x03, 0x73, 0x00, 0x83, 0x00, 0x0C, 0x00, 0x0D,
    0x00, 0x08, 0x11, 0x1F, 0x88, 0x89, 0x00, 0x0E,
    0xDC, 0xCC, 0x6E, 0xE6, 0xDD, 0xDD, 0xD9, 0x99,
    0xBB, 0xBB, 0x67, 0x63, 0x6E, 0x0E, 0xEC, 0xCC,
    0xDD, 0xDC, 0x99, 0x9F, 0xBB, 0xB9, 0x33, 0x3E ]

/-- The address of the logo. -/
def logoAddress : Nat :=
  0x0104

/-- Whether the image carries the logo. -/
def hasLogo (image : Image) : Bool :=
  bytes image logoAddress logo.length == logo

/-- The title: up to sixteen bytes, ended by a zero, without blanks around it. -/
def title (image : Image) : String :=
  String.ofList
    (Blank.trim
      (Utf8.decodeLossy
        ((bytes image 0x0134 16).takeWhile (· != 0))))

/-- Whether the image declares colour functions. -/
def colour (image : Image) : Bool :=
  byte image 0x0143 == 0x80

/-- The code of the kind of cartridge. -/
def kindCode (image : Image) : UInt8 :=
  byte image 0x0147

/-- The code of the ROM size. -/
def romSizeCode (image : Image) : UInt8 :=
  byte image 0x0148

/-- The code of the RAM size. -/
def ramSizeCode (image : Image) : UInt8 :=
  byte image 0x0149

/-- The code of the market that the cartridge was made for. -/
def destination (image : Image) : UInt8 :=
  byte image 0x014A

/-- The ROM banks that a size code declares. -/
def romBanks? (code : UInt8) : Option Nat :=
  if code ≤ 0x06 then
    some (2 <<< code.toNat)
  else if code = 0x52 then
    some 72
  else if code = 0x53 then
    some 80
  else if code = 0x54 then
    some 96
  else
    none

/-- The banks and the bytes of a RAM. -/
structure RamLayout where
  banks : Nat
  size : Nat
  deriving Repr, DecidableEq

/-- The RAM that a size code declares; code 1 stands for a quarter of a bank. -/
def ramLayout? (code : UInt8) : Option RamLayout :=
  match code with
  | 0x00 => some ⟨0, 0⟩
  | 0x01 => some ⟨1, 0x800⟩
  | 0x02 => some ⟨1, 0x2000⟩
  | 0x03 => some ⟨4, 0x8000⟩
  | 0x04 => some ⟨16, 0x20000⟩
  | 0x05 => some ⟨8, 0x10000⟩
  | _ => none

end Header

/-!
## Loading a cartridge

A ROM image becomes a cartridge if its header is sound.  The checks have a fixed
order, and the first that fails is the one reported.
-/

/-- Why an image is no cartridge. -/
inductive LoadError where
  | tooShort (size : Nat)
  | badLogo
  | romSizeMismatch (code : UInt8) (declared held : Nat)
  | unsupportedRomSize (code : UInt8)
  | unsupportedRamSize (code : UInt8)
  | unsupportedKind (code : UInt8)
  deriving Repr, DecidableEq

namespace LoadError

/-- The wording of a load error. -/
def message : LoadError → String
  | .tooShort size =>
      "ROM image is too short (" ++ toString size ++
        " bytes) to contain a header"
  | .badLogo => "logo signature at 0x0104 does not match"
  | .romSizeMismatch code declared held =>
      "ROM size code 0x" ++ Hex.ofByte .lower code ++ " declares " ++
        toString declared ++ " banks but the image holds " ++ toString held
  | .unsupportedRomSize code =>
      "unsupported ROM size code 0x" ++ Hex.ofByte .lower code
  | .unsupportedRamSize code =>
      "unsupported RAM size code 0x" ++ Hex.ofByte .lower code
  | .unsupportedKind code =>
      "unsupported cartridge type 0x" ++ Hex.ofByte .lower code

end LoadError

namespace Cartridge

/-- The ROM banks of an image, if its size agrees with the declared one. -/
def checkRom (image : Image) : Except LoadError Nat :=
  let code := Header.romSizeCode image
  match Header.romBanks? code with
  | none => .error (.unsupportedRomSize code)
  | some declared =>
      let held := image.size / romBankSize
      if declared = held then
        .ok declared
      else
        .error (.romSizeMismatch code declared held)

/-- The RAM that an image declares. -/
def checkRam (image : Image) : Except LoadError Header.RamLayout :=
  let code := Header.ramSizeCode image
  match Header.ramLayout? code with
  | none => .error (.unsupportedRamSize code)
  | some layout => .ok layout

/-- The controller that an image declares, in its state at power-on. -/
def checkKind (image : Image) : Except LoadError Controller :=
  let code := Header.kindCode image
  if code = 0x00 then
    .ok .romOnly
  else if code ≤ 0x03 then
    .ok (.mbc1 .powerOn)
  else
    .error (.unsupportedKind code)

/-- The cartridge of an image whose header has been checked. -/
def ofChecked
    (image : Image)
    (romBanks : Nat)
    (layout : Header.RamLayout)
    (controller : Controller) :
    Cartridge where
  rom := image
  ram := Array.replicate layout.size 0
  romBanks := romBanks
  ramBanks := layout.banks
  controller := controller
  title := Header.title image
  colour := Header.colour image
  destination := Header.destination image
  battery := Header.kindCode image == 0x03

/-- The cartridge of an image, or the first defect of its header. -/
def load (image : Image) : Except LoadError Cartridge :=
  if image.size < Header.size then
    .error (.tooShort image.size)
  else if Header.hasLogo image then do
    let romBanks ← checkRom image
    let layout ← checkRam image
    let controller ← checkKind image
    return ofChecked image romBanks layout controller
  else
    .error .badLogo

/-- The notice of a cartridge that has been loaded. -/
def loadNotice (cartridge : Cartridge) : Notice where
  detail := .info
  text :=
    "Loaded ROM: " ++ cartridge.title ++
      " (MBC: " ++ cartridge.controller.name ++
      ", ROM banks: " ++ toString cartridge.romBanks ++
      ", RAM banks: " ++ toString cartridge.ramBanks ++
      ", CGB: " ++ (if cartridge.colour then "yes" else "no") ++ ")"

end Cartridge

end Dmg
