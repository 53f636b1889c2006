import Dmg.Proofs.ClockFrame
import Dmg.Proofs.Expiries
import Dmg.Proofs.Requests

namespace Dmg.Lcd

/-!
# The scanline counter in closed form

Over any span of time the line counter moves once for every line that is over, round the
154 lines of the frame.  The vertical blank is requested if line 144 is entered on the
way, wherever the counter ends, and the status register tells of the last line alone.
-/

/-- So many moves from a line enter line 144 on the way. -/
def EntersVBlank (line moves : Nat) : Prop :=
  ∃ moved, 1 ≤ moved ∧ moved ≤ moves ∧ (line + moved) % 154 = 144

/-- A first move enters line 144, or those that follow do. -/
theorem entersVBlank_succ_iff {line moves : Nat} :
    EntersVBlank line (moves + 1) ↔
      (line + 1) % 154 = 144 ∨ EntersVBlank ((line + 1) % 154) moves := by
  constructor
  · rintro ⟨moved, begun, atMost, entered⟩
    by_cases first : moved = 1
    · subst first
      exact .inl entered
    · exact .inr ⟨moved - 1, by omega, by omega, by omega⟩
  · rintro (entered | ⟨moved, begun, atMost, entered⟩)
    · exact ⟨1, Nat.le_refl 1, by omega, entered⟩
    · exact ⟨moved + 1, by omega, by omega, by omega⟩

instance decideEntersVBlank :
    (line moves : Nat) → Decidable (EntersVBlank line moves)
  | _, 0 => .isFalse fun ⟨_, begun, atMost, _⟩ => by omega
  | line, moves + 1 =>
      have := decideEntersVBlank ((line + 1) % 154) moves
      decidable_of_iff _ entersVBlank_succ_iff.symm

variable
  {lcd : Lcd}
  {elapsed : UInt64}

/-- Moves over lines request the vertical blank if they enter line 144 on the way. -/
theorem nextLines_raised
    (inFrame : lcd.line.toNat < 154)
    (count : Nat)
    (requests : UInt8) :
    (nextLines count lcd requests).2 =
      if EntersVBlank lcd.line.toNat count then
        Interrupt.vBlank.request requests
      else
        requests := by
  induction count generalizing lcd requests with
  | zero =>
      have notEntered : ¬ EntersVBlank lcd.line.toNat 0 :=
        fun ⟨_, begun, atMost, _⟩ => by omega
      rw [if_neg notEntered]
      rfl
  | succ count inductionHypothesis =>
      have moved :
          (lcd.nextLine requests).1.line.toNat =
            (lcd.line.toNat + 1) % 154 := by
        rw [nextLine_line, toNat_lineAfter inFrame]
      have raised :
          (lcd.nextLine requests).2 =
            if (lcd.line.toNat + 1) % 154 = 144 then
              Interrupt.vBlank.request requests
            else
              requests := by
        have entered :
            lineAfter lcd.line = vBlankLine ↔
              (lcd.line.toNat + 1) % 154 = 144 := by
          rw [← toNat_lineAfter inFrame]
          exact UInt8.toNat_inj.symm
        simp only [nextLine, entered]
      rw [nextLines, inductionHypothesis (by omega), moved, raised]
      -- Where line 144 is entered at once, a later request for it changes nothing.
      by_cases entered : (lcd.line.toNat + 1) % 154 = 144
      · simp only [entered, entersVBlank_succ_iff, true_or, ↓reduceIte,
          Interrupt.request_request, ite_self]
      · simp only [entered, entersVBlank_succ_iff, false_or, ↓reduceIte]

/-- Bits that have been set are seen to be set. -/
theorem or_and_same (byte bits : UInt8) :
    (byte ||| bits) &&& bits = bits := by
  apply UInt8.toBitVec_inj.mp
  ext index
  simp only [UInt8.toBitVec_and, UInt8.toBitVec_or, BitVec.getElem_and,
    BitVec.getElem_or]
  cases bits.toBitVec[index] <;> simp

/-- The comparison of the line sets the bit of the status register that tells of it. -/
theorem compareLine_coincidence (lcd : Lcd) :
    lcd.compareLine.coincidence =
      decide (lcd.compareLine.line = lcd.compareLine.lineCompare) := by
  unfold compareLine coincidence
  split
  case isTrue same =>
    dsimp only
    rw [or_and_same, decide_eq_true same]
    rfl
  case isFalse different =>
    dsimp only
    rw [UInt8.and_assoc, UInt8.and_comm (~~~coincidenceBit),
      UInt8.and_not_self, UInt8.and_zero, decide_eq_false different]
    rfl

/-- The comparison of the line touches no other bit of the status register. -/
theorem compareLine_status (lcd : Lcd) :
    lcd.compareLine.status &&& ~~~coincidenceBit =
      lcd.status &&& ~~~coincidenceBit := by
  unfold compareLine
  split
  · exact or_and_of_hidden rfl lcd.status
  · dsimp only
    rw [UInt8.and_assoc, UInt8.and_self]

/-- Moves over lines touch no other bit of the status register either. -/
theorem nextLines_status
    (count : Nat)
    (lcd : Lcd)
    (requests : UInt8) :
    (nextLines count lcd requests).1.status &&& ~~~coincidenceBit =
      lcd.status &&& ~~~coincidenceBit := by
  induction count generalizing lcd requests with
  | zero => rfl
  | succ count inductionHypothesis =>
      rw [nextLines, inductionHypothesis]
      exact compareLine_status { lcd with line := lineAfter lcd.line }

/-- After moves over lines the status register tells of the last of them alone. -/
theorem nextLines_coincidence
    (count : Nat)
    (lcd : Lcd)
    (requests : UInt8) :
    let later := (nextLines count lcd requests).1
    later.coincidence =
      if count = 0 then
        lcd.coincidence
      else
        decide (later.line = later.lineCompare) := by
  cases count with
  | zero => rfl
  | succ count =>
      dsimp only
      rw [nextLines_add, if_neg (Nat.succ_ne_zero count)]
      let before := (nextLines count lcd requests).1
      exact compareLine_coincidence
        { before with line := lineAfter before.line }

/--
The states that stores into the registers and time can bring the display to, each time by
less than half the range of the clock.
-/
inductive Reachable : Lcd → Prop where
  | powerOn :
      Reachable powerOn
  | write
      {lcd : Lcd}
      (address : UInt16)
      (value : UInt8) :
      Reachable lcd →
      Reachable (lcd.write address value)
  | advance
      {lcd : Lcd}
      {elapsed : UInt64}
      (requests : UInt8) :
      Reachable lcd →
      elapsed.toNat < 2 ^ 63 →
      Reachable (lcd.advance elapsed requests).1

/-- The line is one of the frame, and its countdown lies within the length of a line. -/
structure Ranged (lcd : Lcd) : Prop where
  inFrame : lcd.line.toNat ≤ 153
  lineBegun : 1 ≤ lcd.lineCountdown.left.toInt
  lineAtMost : lcd.lineCountdown.left.toInt ≤ 456

namespace Ranged

theorem powerOn : Lcd.powerOn.Ranged where
  inFrame := by decide
  lineBegun := by decide
  lineAtMost := by decide

/-- A store into a register clears at most the line, and touches no countdown. -/
theorem write
    (ranged : lcd.Ranged)
    (address : UInt16)
    (value : UInt8) :
    (lcd.write address value).Ranged := by
  unfold Lcd.write
  cases Register.ofAddress? address with
  | none => exact ranged
  | some register =>
      cases register with
      | line =>
          exact ⟨Nat.zero_le 153, ranged.lineBegun, ranged.lineAtMost⟩
      | _ =>
          exact ⟨ranged.inFrame, ranged.lineBegun, ranged.lineAtMost⟩

variable
  (ranged : lcd.Ranged)
  (bounded : elapsed.toNat < 2 ^ 63)
include ranged bounded

/-- The line's countdown counts the lines that are begun. -/
theorem lineCountdown :
    let past := 456 - lcd.lineCountdown.cycles + elapsed.toNat
    let advanced := lcd.lineCountdown.advance cyclesPerLine elapsed
    advanced.1.left.toInt = 456 - (past % 456 : Nat) ∧
      advanced.2 = past / 456 :=
  Countdown.advance_within
    (show cyclesPerLine.toInt = (456 : Nat) from rfl)
    ranged.lineBegun ranged.lineAtMost bounded

theorem advance (requests : UInt8) :
    (lcd.advance elapsed requests).1.Ranged := by
  have inFrame : lcd.line.toNat < 154 := Nat.lt_succ_of_le ranged.inFrame
  obtain ⟨countdown, line⟩ := advance_line inFrame elapsed requests
  obtain ⟨lineLeft, -⟩ := ranged.lineCountdown bounded
  constructor
  · omega
  · rw [countdown]
    omega
  · rw [countdown]
    omega

end Ranged

/-- The line of a reachable display and its countdown are in range. -/
theorem Reachable.ranged (reachable : lcd.Reachable) : lcd.Ranged := by
  induction reachable with
  | powerOn => exact .powerOn
  | write address value _ inductionHypothesis =>
      exact inductionHypothesis.write address value
  | advance requests _ bounded inductionHypothesis =>
      exact inductionHypothesis.advance bounded requests

/--
Over any span of time a reachable display does what can be computed without a loop.  The
line moves once for every line that is over, round the frame, and its byte never
overflows on the way; the vertical blank is requested if and only if line 144 is entered
by one of the moves.  The status register tells of the last move, if there was one, and
nothing else changes.
-/
theorem Reachable.advance_round_the_frame
    (reachable : lcd.Reachable)
    (bounded : elapsed.toNat < 2 ^ 63)
    (requests : UInt8) :
    let past := 456 - lcd.lineCountdown.cycles + elapsed.toNat
    let moves := past / 456
    let later := lcd.advance elapsed requests
    lcd.Ranged ∧
      later.1.Ranged ∧
      (lcd.lineCountdown.advance cyclesPerLine elapsed).2 = moves ∧
      later.1.line.toNat = (lcd.line.toNat + moves) % 154 ∧
      later.1.lineCountdown.cycles = 456 - past % 456 ∧
      later.2 =
        (if EntersVBlank lcd.line.toNat moves then
          Interrupt.vBlank.request requests
        else
          requests) ∧
      later.1.coincidence =
        (if moves = 0 then
          lcd.coincidence
        else
          decide (later.1.line = later.1.lineCompare)) ∧
      later.1.status &&& ~~~coincidenceBit =
        lcd.status &&& ~~~coincidenceBit ∧
      later.2 &&& ~~~Interrupt.vBlank.bit =
        requests &&& ~~~Interrupt.vBlank.bit ∧
      later.1 =
        { lcd with
          status := later.1.status
          line := later.1.line
          lineCountdown := later.1.lineCountdown } ∧
      ∀ moved,
        let reached := (nextLines moved lcd requests).1
        (reached.line + 1).toNat = reached.line.toNat + 1 := by
  intro past moves later
  have ranged := reachable.ranged
  have inFrame : lcd.line.toNat < 154 := Nat.lt_succ_of_le ranged.inFrame
  obtain ⟨lineLeft, counted⟩ := ranged.lineCountdown bounded
  obtain ⟨countdown, line⟩ := advance_line inFrame elapsed requests
  rw [counted] at line
  let started :=
    { lcd with
      lineCountdown :=
        (lcd.lineCountdown.advance cyclesPerLine elapsed).1 }
  have moved : later = nextLines moves started requests :=
    congrArg (nextLines · started requests) counted
  refine
    ⟨ranged, ranged.advance bounded requests, counted, line, ?_, ?_, ?_,
      ?_, ?_, ?_, ?_⟩
  · have remainder := Nat.mod_lt past (show 0 < 456 by decide)
    rw [countdown]
    exact (congrArg Int.toNat lineLeft).trans (by omega)
  · rw [moved]
    have startedInFrame : started.line.toNat < 154 := inFrame
    exact nextLines_raised startedInFrame moves requests
  · rw [moved]
    exact nextLines_coincidence moves started requests
  · rw [moved]
    exact nextLines_status moves started requests
  · rw [moved]
    exact nextLines_and (by decide) moves started requests
  · obtain ⟨line, status, countdown, left⟩ :=
      lcd.advance_frame elapsed requests
    change (lcd.advance elapsed requests).1 = _
    rw [left]
  · intro moved reached
    have onFrame : reached.line.toNat < 154 := by
      rw [nextLines_line inFrame moved requests]
      exact Nat.mod_lt _ (by decide)
    rw [UInt8.toNat_add, UInt8.toNat_one]
    omega

/--
The 155 lines that are over after 70680 cycles take the counter from line 0 to line 1 and
past line 144, although it was cleared in the middle of a line of the blank.
-/
theorem advance_round_the_frame_restarted :
    let lcd :=
      ((powerOn.advance 66000 0).1.write 0xFF44 0x55).write 0xFF45 0x01
    lcd.Reachable ∧
      (lcd.advance 70680 0x02).1.line.toNat = 1 ∧
      (lcd.advance 70680 0x02).1.coincidence = true ∧
      (lcd.advance 70680 0x02).1.lineCountdown.cycles = 120 ∧
      (lcd.advance 70680 0x02).2 = 0x03 := by
  intro lcd
  have reachable : lcd.Reachable :=
    .write _ _ (.write _ _ (.advance 0 .powerOn (by decide)))
  have left : lcd.lineCountdown.cycles = 120 := by
    obtain ⟨-, -, -, -, started, -⟩ :=
      Reachable.powerOn.advance_round_the_frame
        (show (66000 : UInt64).toNat < 2 ^ 63 by decide) 0
    exact started.trans (by decide)
  obtain ⟨-, -, -, moved, remaining, raised, coincidence, -, -, others, -⟩ :=
    reachable.advance_round_the_frame
      (show (70680 : UInt64).toNat < 2 ^ 63 by decide) 0x02
  rw [left] at moved remaining raised coincidence
  have line : (lcd.advance 70680 0x02).1.line.toNat = 1 :=
    moved.trans (by decide)
  have sameLine : (lcd.advance 70680 0x02).1.line = 0x01 :=
    UInt8.toNat_inj.mp line
  have sameCompare : (lcd.advance 70680 0x02).1.lineCompare = 0x01 := by
    rw [others]
    rfl
  rw [sameLine, sameCompare] at coincidence
  exact
    ⟨reachable, line, coincidence.trans (by decide),
      remaining.trans (by decide),
      raised.trans
        (if_pos ⟨144, by decide, by decide, by decide⟩)⟩

end Dmg.Lcd
