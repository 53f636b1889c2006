import Dmg.Proofs.Banking

namespace Dmg

/-!
# Sound images and the defects of others

An image has to meet six requirements, one after the other; it is refused for the first
that it does not meet, and loaded if it meets them all.  A cartridge that is loaded has
the image for its ROM, a cleared RAM of the declared size, and a controller at power-on.
-/

/-- Something that is required of an image, and how it is refused otherwise. -/
structure Requirement where
  met : Prop
  error : LoadError

/-- The error of the first of several requirements that is not met. -/
inductive FirstUnmet : List Requirement → LoadError → Prop where
  | here
      {requirement : Requirement}
      {rest : List Requirement}
      (unmet : ¬ requirement.met) :
      FirstUnmet (requirement :: rest) requirement.error
  | later
      {requirement : Requirement}
      {rest : List Requirement}
      {error : LoadError}
      (met : requirement.met)
      (first : FirstUnmet rest error) :
      FirstUnmet (requirement :: rest) error

/-- All requirements are met and the result is good, or it is the error of the first unmet. -/
inductive Enforces
    {α : Type}
    (requirements : List Requirement)
    (good : α → Prop) :
    Except LoadError α → Prop where
  | accepted
      {value : α}
      (met : ∀ requirement ∈ requirements, requirement.met)
      (isGood : good value) :
      Enforces requirements good (.ok value)
  | refused
      {error : LoadError}
      (unmet : FirstUnmet requirements error) :
      Enforces requirements good (.error error)

section Requirements

variable
  {α β : Type}
  {requirement : Requirement}
  {requirements first second : List Requirement}
  {error other : LoadError}
  {good : α → Prop}

/-- Only one requirement is the first that is not met. -/
theorem FirstUnmet.unique
    (unmet : FirstUnmet requirements error)
    (otherUnmet : FirstUnmet requirements other) :
    error = other := by
  induction unmet with
  | here unmet =>
      cases otherUnmet with
      | here => rfl
      | later met => exact absurd met unmet
  | later met _ inductionHypothesis =>
      cases otherUnmet with
      | here unmet => exact absurd met unmet
      | later _ otherFirst => exact inductionHypothesis otherFirst

theorem FirstUnmet.not_all_met (unmet : FirstUnmet requirements error) :
    ¬ ∀ requirement ∈ requirements, requirement.met := by
  intro met
  induction unmet with
  | here unmet => exact unmet (met _ List.mem_cons_self)
  | later _ _ inductionHypothesis =>
      exact inductionHypothesis fun requirement among =>
        met requirement (List.mem_cons_of_mem _ among)

/-- Further requirements do not come before the first that is not met. -/
theorem FirstUnmet.append_right (unmet : FirstUnmet first error) :
    FirstUnmet (first ++ second) error := by
  induction unmet with
  | here unmet => exact .here unmet
  | later met _ inductionHypothesis => exact .later met inductionHypothesis

/-- Requirements that are met may come before it. -/
theorem FirstUnmet.append_left
    (met : ∀ requirement ∈ first, requirement.met)
    (unmet : FirstUnmet second error) :
    FirstUnmet (first ++ second) error := by
  induction first with
  | nil => exact unmet
  | cons requirement rest inductionHypothesis =>
      rw [List.forall_mem_cons] at met
      exact .later met.1 (inductionHypothesis met.2)

namespace Enforces

theorem of_good
    {value : α}
    (isGood : good value) :
    Enforces [] good (.ok value) :=
  .accepted nofun isGood

/-- A requirement that is met comes before the others. -/
theorem of_met
    {result : Except LoadError α}
    (met : requirement.met)
    (enforced : Enforces requirements good result) :
    Enforces (requirement :: requirements) good result := by
  cases enforced with
  | accepted othersMet isGood =>
      exact .accepted (List.forall_mem_cons.mpr ⟨met, othersMet⟩) isGood
  | refused unmet => exact .refused (.later met unmet)

theorem of_unmet (unmet : ¬ requirement.met) :
    Enforces (requirement :: requirements) good (.error requirement.error) :=
  .refused (.here unmet)

/-- Of two computations in a row, the first enforces its requirements first. -/
theorem bind
    {between : β → Prop}
    {result : Except LoadError β}
    {next : β → Except LoadError α}
    (enforced : Enforces first between result)
    (follows :
      ∀ value, between value → Enforces second good (next value)) :
    Enforces (first ++ second) good (result >>= next) := by
  cases enforced with
  | refused unmet => exact .refused unmet.append_right
  | @accepted value met isBetween =>
      have continued := follows value isBetween
      change Enforces (first ++ second) good (next value)
      generalize next value = last at continued ⊢
      cases continued with
      | refused unmet => exact .refused (.append_left met unmet)
      | accepted othersMet isGood =>
          exact .accepted (List.forall_mem_append.mpr ⟨met, othersMet⟩) isGood

theorem bindOne
    {between : β → Prop}
    {result : Except LoadError β}
    {next : β → Except LoadError α}
    (enforced : Enforces [requirement] between result)
    (follows :
      ∀ value, between value → Enforces second good (next value)) :
    Enforces (requirement :: second) good (result >>= next) :=
  enforced.bind follows

variable {result : Except LoadError α}

theorem eq_error_iff (enforced : Enforces requirements good result) :
    result = .error error ↔ FirstUnmet requirements error := by
  cases enforced with
  | accepted met =>
      simp only [reduceCtorEq, false_iff]
      intro unmet
      exact unmet.not_all_met met
  | refused unmet =>
      rw [Except.error.injEq]
      constructor
      · rintro rfl
        exact unmet
      · exact unmet.unique

theorem exists_ok_iff (enforced : Enforces requirements good result) :
    (∃ value, result = .ok value) ↔
      ∀ requirement ∈ requirements, requirement.met := by
  cases enforced with
  | accepted met => exact ⟨fun _ => met, fun _ => ⟨_, rfl⟩⟩
  | refused unmet =>
      simp only [reduceCtorEq, exists_false, false_iff]
      exact unmet.not_all_met

theorem of_eq_ok
    {value : α}
    (enforced : Enforces requirements good result)
    (isResult : result = .ok value) :
    good value := by
  cases enforced with
  | accepted _ isGood =>
      cases isResult
      exact isGood
  | refused => cases isResult

end Enforces

end Requirements

namespace Header

/-- The codes of ROM sizes. -/
def SupportsRom (code : UInt8) : Prop :=
  code ≤ 0x06 ∨ 0x52 ≤ code ∧ code ≤ 0x54

instance (code : UInt8) : Decidable (SupportsRom code) :=
  inferInstanceAs (Decidable (_ ∨ _))

/-- The number of ROM banks that a code stands for. -/
def declaredRomBanks (code : UInt8) : Nat :=
  match code with
  | 0x52 => 72
  | 0x53 => 80
  | 0x54 => 96
  | _ => 2 <<< code.toNat

/-- The number of RAM banks that a code stands for. -/
def declaredRamBanks (code : UInt8) : Nat :=
  match code with
  | 0x01 => 1
  | 0x02 => 1
  | 0x03 => 4
  | 0x04 => 16
  | 0x05 => 8
  | _ => 0

/-- The bytes of a RAM of so many banks; one of them may be a quarter of a bank. -/
def declaredRamSize
    (code : UInt8)
    (banks : Nat) :
    Nat :=
  if code = 0x00 then
    0
  else if code = 0x01 then
    0x800
  else
    banks * 0x2000

theorem romBanks?_eq (code : UInt8) :
    romBanks? code =
      if SupportsRom code then some (declaredRomBanks code) else none := by
  have everyCode :
      ∀ number : Fin 256,
        romBanks? (.ofFin number) =
          if SupportsRom (.ofFin number) then
            some (declaredRomBanks (.ofFin number))
          else
            none := by
    decide +kernel
  exact everyCode code.toFin

theorem ramLayout?_eq (code : UInt8) :
    ramLayout? code =
      if code ≤ 0x05 then
        some
          ⟨declaredRamBanks code, declaredRamSize code (declaredRamBanks code)⟩
      else
        none := by
  have everyCode :
      ∀ number : Fin 256,
        ramLayout? (.ofFin number) =
          if UInt8.ofFin number ≤ 0x05 then
            some
              ⟨declaredRamBanks (.ofFin number),
                declaredRamSize (.ofFin number)
                  (declaredRamBanks (.ofFin number))⟩
          else
            none := by
    decide +kernel
  exact everyCode code.toFin

/-- The logo is found byte by byte. -/
theorem hasLogo_iff (image : Image) :
    hasLogo image = true ↔
      ∀ offset < 48, image[0x0104 + offset]? = logo[offset]? := by
  have listed (offset : Nat) :
      (bytes image logoAddress logo.length)[offset]? =
        if offset < 48 then image[0x0104 + offset]? else none := by
    rw [bytes, Array.getElem?_toList]
    exact Cartridge.getElem?_stretch image 0x0104 48 offset
  rw [hasLogo, beq_iff_eq]
  constructor
  · intro same offset inside
    have found := congrArg (fun logo : List UInt8 => logo[offset]?) same
    rwa [listed, if_pos inside] at found
  · intro found
    apply List.ext_getElem?
    intro offset
    rw [listed]
    split
    case isTrue inside => exact found offset inside
    case isFalse outside =>
      exact (List.getElem?_eq_none (Nat.le_of_not_lt outside)).symm

end Header

namespace Cartridge

section Requirements

variable (image : Image)

/-- The header is there. -/
def lengthRequirement : Requirement where
  met := 0x0150 ≤ image.size
  error := .tooShort image.size

def logoRequirement : Requirement where
  met := ∀ offset < 48, image[0x0104 + offset]? = Header.logo[offset]?
  error := .badLogo

/-- The requirements on the code of the ROM size, and on the size of the image. -/
def romRequirements : List Requirement :=
  let code := Header.romSizeCode image
  let declared := Header.declaredRomBanks code
  let held := image.size / 0x4000
  [ ⟨Header.SupportsRom code, .unsupportedRomSize code⟩,
    ⟨held = declared, .romSizeMismatch code declared held⟩ ]

/-- The requirement on the code of the RAM size. -/
def ramRequirement : Requirement where
  met := Header.ramSizeCode image ≤ 0x05
  error := .unsupportedRamSize (Header.ramSizeCode image)

/-- The requirement on the code of the kind. -/
def kindRequirement : Requirement where
  met := Header.kindCode image ≤ 0x03
  error := .unsupportedKind (Header.kindCode image)

/-- What is required of an image, in the order in which it is checked. -/
def requirements : List Requirement :=
  lengthRequirement image :: logoRequirement image ::
    (romRequirements image ++ [ramRequirement image, kindRequirement image])

theorem requirements_met_iff :
    (∀ requirement ∈ requirements image, requirement.met) ↔
      0x0150 ≤ image.size ∧
        (∀ offset < 48, image[0x0104 + offset]? = Header.logo[offset]?) ∧
        Header.SupportsRom (Header.romSizeCode image) ∧
        image.size / 0x4000 =
          Header.declaredRomBanks (Header.romSizeCode image) ∧
        Header.ramSizeCode image ≤ 0x05 ∧
        Header.kindCode image ≤ 0x03 := by
  simp only [requirements, romRequirements, List.cons_append,
    List.nil_append, List.forall_mem_cons, lengthRequirement,
    logoRequirement, ramRequirement, kindRequirement, List.not_mem_nil,
    false_implies, implies_true, and_true]

/-- The cartridge is that of the image, as new. -/
structure Represents (cartridge : Cartridge) : Prop where
  rom : cartridge.rom = image
  romBanks :
    cartridge.romBanks =
      Header.declaredRomBanks (Header.romSizeCode image)
  ramBanks :
    cartridge.ramBanks =
      Header.declaredRamBanks (Header.ramSizeCode image)
  ram :
    cartridge.ram =
      Array.replicate
        (Header.declaredRamSize (Header.ramSizeCode image)
          cartridge.ramBanks)
        0
  controller :
    cartridge.controller =
      if Header.kindCode image = 0x00 then .romOnly else .mbc1 .powerOn
  battery : cartridge.battery = true ↔ Header.kindCode image = 0x03
  title : cartridge.title = Header.title image
  colour : cartridge.colour = Header.colour image
  destination : cartridge.destination = Header.destination image

theorem checkRom_enforces :
    Enforces (romRequirements image)
      (· = Header.declaredRomBanks (Header.romSizeCode image))
      (checkRom image) := by
  unfold checkRom
  dsimp only
  rw [Header.romBanks?_eq]
  by_cases supported : Header.SupportsRom (Header.romSizeCode image)
  case neg =>
    rw [if_neg supported]
    exact .of_unmet supported
  rw [if_pos supported]
  refine .of_met supported ?_
  dsimp only
  by_cases held :
    Header.declaredRomBanks (Header.romSizeCode image) =
      image.size / romBankSize
  case neg =>
    rw [if_neg held]
    exact .of_unmet (Ne.symm held)
  rw [if_pos held]
  exact .of_met held.symm (.of_good rfl)

theorem checkRam_enforces :
    Enforces [ramRequirement image]
      (fun layout =>
        layout =
          { banks := Header.declaredRamBanks (Header.ramSizeCode image)
            size :=
              Header.declaredRamSize (Header.ramSizeCode image)
                (Header.declaredRamBanks (Header.ramSizeCode image)) })
      (checkRam image) := by
  unfold checkRam
  dsimp only
  rw [Header.ramLayout?_eq]
  by_cases supported : Header.ramSizeCode image ≤ 0x05
  case neg =>
    rw [if_neg supported]
    exact .of_unmet supported
  rw [if_pos supported]
  exact .of_met supported (.of_good rfl)

theorem checkKind_enforces :
    Enforces [kindRequirement image]
      (fun controller =>
        controller =
          if Header.kindCode image = 0x00 then .romOnly else .mbc1 .powerOn)
      (checkKind image) := by
  unfold checkKind
  dsimp only
  by_cases plain : Header.kindCode image = 0x00
  case pos =>
    have supported : Header.kindCode image ≤ 0x03 := by
      rw [plain]
      decide
    rw [if_pos plain, if_pos plain]
    exact .of_met supported (.of_good rfl)
  rw [if_neg plain, if_neg plain]
  by_cases supported : Header.kindCode image ≤ 0x03
  case neg =>
    rw [if_neg supported]
    exact .of_unmet supported
  rw [if_pos supported]
  exact .of_met supported (.of_good rfl)

/-- Loading enforces the requirements in their order. -/
theorem load_enforces :
    Enforces (requirements image) (Represents image) (load image) := by
  unfold load requirements
  by_cases long : Header.size ≤ image.size
  case neg =>
    rw [if_pos (Nat.lt_of_not_le long)]
    exact .of_unmet long
  rw [if_neg (Nat.not_lt.mpr long)]
  refine .of_met long ?_
  by_cases logo : Header.hasLogo image = true
  case neg =>
    rw [if_neg logo]
    exact .of_unmet ((not_congr (Header.hasLogo_iff image)).mp logo)
  rw [if_pos logo]
  refine .of_met ((Header.hasLogo_iff image).mp logo) ?_
  refine (checkRom_enforces image).bind ?_
  rintro _ rfl
  refine (checkRam_enforces image).bindOne ?_
  rintro _ rfl
  refine (checkKind_enforces image).bindOne ?_
  rintro _ rfl
  apply Enforces.of_good
  exact
    { rom := rfl
      romBanks := rfl
      ramBanks := rfl
      ram := rfl
      controller := rfl
      battery := beq_iff_eq
      title := rfl
      colour := rfl
      destination := rfl }

end Requirements

end Cartridge

end Dmg
