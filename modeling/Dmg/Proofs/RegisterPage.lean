import Dmg.Peripherals

namespace Dmg

/-!
# The registers of the page

Every register except the sound registers answers at one address of its own, and a
store into it changes no other register.  The sound registers keep nothing and
cannot be read, so sharing one name does them no harm.
-/

/-- A choice that finds something has found it in its own case or goes on to the next. -/
theorem found_here_or_later
    {condition : Prop}
    [Decidable condition]
    {value result : α}
    {later : Option α}
    (found : (if condition then some value else later) = some result) :
    condition ∧ value = result ∨ later = some result := by
  by_cases here : condition
  · rw [if_pos here] at found
    exact .inl ⟨here, Option.some.inj found⟩
  · rw [if_neg here] at found
    exact .inr found

namespace Timer

/-- The address of a register. -/
def Register.address : Register → UInt16
  | .divider => 0xFF04
  | .counter => 0xFF05
  | .modulo => 0xFF06
  | .control => 0xFF07

/-- A register is found at its own address and nowhere else. -/
theorem Register.ofAddress?_eq_some_iff
    {address : UInt16}
    {register : Register} :
    Register.ofAddress? address = some register ↔
      address = register.address := by
  constructor
  · intro found
    unfold Register.ofAddress? at found
    iterate 4
      rcases found_here_or_later found with ⟨here, rfl⟩ | found
      · exact here
    exact nomatch found
  · rintro rfl
    cases register <;> rfl

/-- A store into one register leaves the others alone. -/
theorem get_set_other
    {register other : Register}
    (different : other ≠ register)
    (timer : Timer)
    (value : UInt8) :
    (timer.set register value).get other = timer.get other := by
  cases register <;> cases other <;> simp_all [get, set]

end Timer

namespace Lcd

def Register.address : Register → UInt16
  | .control => 0xFF40
  | .status => 0xFF41
  | .scrollY => 0xFF42
  | .scrollX => 0xFF43
  | .line => 0xFF44
  | .lineCompare => 0xFF45
  | .backgroundPalette => 0xFF47
  | .objectPalette0 => 0xFF48
  | .objectPalette1 => 0xFF49
  | .windowY => 0xFF4A
  | .windowX => 0xFF4B

theorem Register.ofAddress?_eq_some_iff
    {address : UInt16}
    {register : Register} :
    Register.ofAddress? address = some register ↔
      address = register.address := by
  constructor
  · intro found
    unfold Register.ofAddress? at found
    iterate 11
      rcases found_here_or_later found with ⟨here, rfl⟩ | found
      · exact here
    exact nomatch found
  · rintro rfl
    cases register <;> rfl

theorem get_set_other
    {register other : Register}
    (different : other ≠ register)
    (lcd : Lcd)
    (value : UInt8) :
    (lcd.set register value).get other = lcd.get other := by
  cases register <;> cases other <;> simp_all [get, set]

end Lcd

namespace Peripherals

/-- The address of a register that has one of its own. -/
def Register.address? : Register → Option UInt16
  | .joypad => some 0xFF00
  | .serialData => some 0xFF01
  | .serialControl => some 0xFF02
  | .timer register => some register.address
  | .requests => some 0xFF0F
  | .sound => none
  | .lcd register => some register.address
  | .transfer => some 0xFF46
  | .speedSwitch => some 0xFF4D

/-- A register other than the sound registers is found at its own address only. -/
theorem Register.address?_of_ofAddress?
    {address : UInt16}
    {register : Register}
    (found : Register.ofAddress? address = some register)
    (notSound : register ≠ .sound) :
    register.address? = some address := by
  unfold Register.ofAddress? at found
  iterate 4
    rcases found_here_or_later found with ⟨here, rfl⟩ | found
    · rw [here]
      rfl
  rcases found_here_or_later found with ⟨-, rfl⟩ | found
  · exact (notSound rfl).elim
  iterate 2
    rcases found_here_or_later found with ⟨here, rfl⟩ | found
    · rw [here]
      rfl
  split at found
  next timerRegister timerFound =>
    cases found
    exact congrArg some (Timer.Register.ofAddress?_eq_some_iff.mp timerFound).symm
  next =>
    obtain ⟨lcdRegister, lcdFound, rfl⟩ := Option.map_eq_some_iff.mp found
    exact congrArg some (Lcd.Register.ofAddress?_eq_some_iff.mp lcdFound).symm

/-- Two addresses that lead to the same register are the same, unless it is a sound register. -/
theorem Register.address_unique
    {first second : UInt16}
    {register : Register}
    (firstFound : Register.ofAddress? first = some register)
    (secondFound : Register.ofAddress? second = some register)
    (notSound : register ≠ .sound) :
    first = second :=
  Option.some.inj
    ((address?_of_ofAddress? firstFound notSound).symm.trans
      (address?_of_ofAddress? secondFound notSound))

/-- A store into one register leaves what the others read as alone. -/
theorem get?_set_other
    {register other : Register}
    (different : other ≠ register)
    (peripherals : Peripherals)
    (value : UInt8) :
    (peripherals.set register value).get? other =
      peripherals.get? other := by
  cases register with
  | timer timerRegister =>
      cases other with
      | timer otherRegister =>
          exact congrArg some
            (Timer.get_set_other
              (fun same => different (congrArg Register.timer same))
              peripherals.timer value)
      | _ => rfl
  | lcd lcdRegister =>
      cases other with
      | lcd otherRegister =>
          exact congrArg some
            (Lcd.get_set_other
              (fun same => different (congrArg Register.lcd same))
              peripherals.lcd value)
      | _ => rfl
  | _ =>
      cases other <;>
        first
          | rfl
          | exact (different rfl).elim

/-- A store at one address leaves what any other address reads as alone. -/
theorem read_write_other
    {stored address : UInt16}
    (different : address ≠ stored)
    (peripherals : Peripherals)
    (value : UInt8) :
    (peripherals.write stored value).read address =
      peripherals.read address := by
  unfold write read
  cases storedFound : Register.ofAddress? stored with
  | none => rfl
  | some register =>
      cases addressFound : Register.ofAddress? address with
      | none => rfl
      | some other =>
          by_cases same : other = register
          · subst same
            by_cases isSound : other = .sound
            · subst isSound
              rfl
            · exact (different
                (Register.address_unique
                  addressFound storedFound isSound)).elim
          · simp only [Option.bind_some,
              get?_set_other same peripherals value]

/-- Away from the register page, there is nothing that a store could change. -/
theorem write_outside_page
    {address : UInt16}
    (outside : address.toNat < 0xFF00 ∨ 0xFF4C ≤ address.toNat)
    (peripherals : Peripherals)
    (value : UInt8) :
    peripherals.write address value = peripherals := by
  unfold write
  cases found : Register.ofAddress? address with
  | none => rfl
  | some register =>
      by_cases isSound : register = .sound
      · subst isSound
        rfl
      · have home := Register.address?_of_ofAddress? found isSound
        cases register with
        | sound => rfl
        -- The speed switch is found beyond the page, but keeps nothing.
        | speedSwitch => rfl
        | timer timerRegister =>
            cases timerRegister <;> cases home <;>
              exact absurd outside (by decide)
        | lcd lcdRegister =>
            cases lcdRegister <;> cases home <;>
              exact absurd outside (by decide)
        | _ =>
            cases home
            exact absurd outside (by decide)

end Peripherals

end Dmg
