import DotMatrix.Proofs.Checked.Scanline
import DotMatrix.Proofs.Lcd.Slicing

namespace DotMatrix

open Checked

namespace Lcd

/-- The row of a line is put among those of the frame. -/
def checkedDraw (s : Lcd) (ram : VideoRam) : Checked Lcd := do
  if s.line.val < 144 then
    let row ← Scanline.checkedDraw s.latch ram s.line s.windowLine s.sprites s.tall
    return { s with
      back := ← put s.back s.line.val row
      windowLine := if s.latch.windowOn s.line then s.windowLine + 1 else s.windowLine }
  else return s

end Lcd

namespace Panel

/-- The end of a scan, at which the sprites of a line are looked for. -/
def checkedEndScan (p : Panel) : Checked Panel := do
  let tall := p.lcd.latch.tallSprites
  let sprites ← Sprite.checkedScan p.bus.oam p.lcd.line tall
  return compare { p with lcd := { p.lcd with sprites, tall, mode := .transfer } }

/-- The end of a transfer, at which the line is drawn. -/
def checkedEndTransfer (p : Panel) : Checked Panel := do
  return { p with lcd := { (← p.lcd.checkedDraw p.bus.vram) with mode := .rest } }

/-- The line is counted in a byte, and is one of 154. -/
def checkedEndRest (p : Panel) : Checked Panel := do
  let line ← place 154 (← plus 8 p.lcd.line.val 1)
  if line = 144 then
    let p := compare { p with lcd := { p.lcd with line, mode := .blank } }
    return {
      lcd := { p.lcd with front := p.lcd.back, back := p.lcd.front, frames := p.lcd.frames + 1 }
      bus := p.bus.request .vblank
      finished := true }
  else return { p with lcd := { p.lcd with line, mode := .scan } }

/-- The end of a line below the screen, with the first one after the last. -/
def checkedEndBlankLine (p : Panel) : Checked Panel := do
  let next ← plus 8 p.lcd.line.val 1
  if next = 154 then
    return { p with lcd := { p.lcd with line := 0, windowLine := 0, mode := .scan } }
  else
    let line ← place 154 next
    return compare { p with lcd.line := line }

/-- The end of a mode. -/
def checkedEndMode (p : Panel) : Checked Panel :=
  match p.lcd.mode with
  | .scan => p.checkedEndScan
  | .transfer => p.checkedEndTransfer
  | .rest => p.checkedEndRest
  | .blank => p.checkedEndBlankLine

/-- The dots are counted in a word, and those of a mode taken off at its end. -/
def checkedAdvance (n : Nat) (p : Panel) : Checked Panel := do
  let dot ← plus 16 p.lcd.dot n
  if dot < p.lcd.mode.length then return { p with lcd.dot := dot }
  else
    let dot ← minus dot p.lcd.mode.length
    checkedEndMode { p with lcd := { p.lcd with dot, latch := .ofRegisters p.bus.registers } }

/-- A slice, on or off. -/
def checkedSlice (n : Nat) (p : Panel) : Checked Panel := do
  if p.wanted then return (← p.started.checkedAdvance n).publish.raiseStatus
  else if p.lcd.on then return p.switchOff
  else return p

/-- Several whole slices. -/
def checkedSlices : Nat → Panel → Checked Panel
  | 0, p => return p
  | k + 1, p => do checkedSlices k (← p.checkedSlice 4)

/-- Whole slices and what is left. -/
def checkedStep (n : Nat) (p : Panel) : Checked Panel := do
  let p ← checkedSlices (n / 4) p
  if n % 4 = 0 then return p else p.checkedSlice (n % 4)

end Panel

/-- A step of the LCD on the bus that it is given. -/
def Lcd.checkedStep (n : Nat) (lcd : Lcd) (bus : Bus) : Checked Panel :=
  Panel.checkedStep n ⟨lcd, bus, false⟩

/-- What keeps the LCD inside its tables: only a blank line lies below the screen, and the sprites
are those that a scan has chosen, with the height that they had then. -/
structure Lcd.Placed (s : Lcd) : Prop where
  within : s.dot < s.mode.length
  shown : s.mode ≠ .blank → s.line.val < 144
  dark : s.on = false → s.line.val < 144
  chosen : Sprite.Chosen s.sprites s.tall

theorem LcdMode.length_le (m : LcdMode) : m.length ≤ 456 := by
  cases m <;> decide

theorem LcdMode.lt_length {dot : Nat} (early : dot < 80) (m : LcdMode) : dot < m.length :=
  early.trans_le m.le_length

theorem Position.topmost_lt : (0 : Fin 154).val < 144 := by decide

namespace Lcd

theorem Placed.initial : Lcd.initial.Placed where
  within := by decide
  shown _ := by decide
  dark _ := by decide
  chosen := ⟨Nat.zero_le _, fun _ member => absurd member List.not_mem_nil⟩

/-- A line on the screen has its row, and the sprites on it their rows. -/
theorem Placed.checkedDraw {s : Lcd} (placed : s.Placed) (ram : VideoRam) :
    s.checkedDraw ram = .ok (s.draw ram) := by
  unfold Lcd.checkedDraw draw
  by_cases shown : s.line.val < 144
  · rw [if_pos shown, dif_pos shown, Scanline.checkedDraw_eq shown placed.chosen, ok_bind,
      put_ok _ _ shown]
    rfl
  · rw [if_neg shown, dif_neg shown, pure_eq]

end Lcd

namespace Panel

variable {p : Panel} {n : Nat}

/-- Where line and mode fit together, a mode ends without a crash. -/
theorem checkedEndMode_eq (placed : p.lcd.Placed) : p.checkedEndMode = .ok p.endMode := by
  have below := p.lcd.line.isLt
  unfold checkedEndMode endMode
  cases mode : p.lcd.mode with
  | scan =>
    dsimp only
    rw [checkedEndScan, Sprite.checkedScan_eq]
    rfl
  | transfer =>
    dsimp only
    rw [checkedEndTransfer, placed.checkedDraw]
    rfl
  | rest =>
    have shown := placed.shown (by rw [mode]; decide)
    have next : (⟨p.lcd.line.val + 1, by omega⟩ : Fin 154) = p.lcd.line + 1 :=
      Fin.ext (Position.line_succ (by omega)).symm
    dsimp only
    rw [checkedEndRest, plus_ok (by omega), ok_bind, place_ok (by omega), ok_bind, next, endRest]
    dsimp only
    split_ifs <;> rfl
  | blank =>
    dsimp only
    rw [checkedEndBlankLine, plus_ok (by omega), ok_bind, endBlankLine]
    by_cases final : p.lcd.line = 153
    · have last : p.lcd.line.val = 153 := congrArg Fin.val final
      rw [if_pos final, if_pos (by omega), pure_eq]
    · have inside : p.lcd.line.val ≠ 153 := fun last => final (Fin.ext last)
      have next : (⟨p.lcd.line.val + 1, by omega⟩ : Fin 154) = p.lcd.line + 1 :=
        Fin.ext (Position.line_succ (by omega)).symm
      rw [if_neg final, if_neg (by omega), place_ok (by omega), ok_bind, next, pure_eq]

theorem endMode_placed (placed : p.lcd.Placed) (on : p.lcd.on = true) (early : p.lcd.dot < 80) :
    p.endMode.lcd.Placed := by
  have still : p.endMode.lcd.on = true := p.endMode_moved.on.trans on
  have lit (dark : p.endMode.lcd.on = false) : p.endMode.lcd.line.val < 144 :=
    absurd (still.symm.trans dark) (by decide)
  have long := LcdMode.lt_length early
  unfold endMode at lit ⊢
  cases mode : p.lcd.mode with
  | scan =>
    have shown := placed.shown (by rw [mode]; decide)
    rw [mode] at lit
    exact ⟨long _, fun _ => shown, lit, Sprite.chosen_scan⟩
  | transfer =>
    have shown := placed.shown (by rw [mode]; decide)
    obtain ⟨back, windowLine, drawn⟩ := draw_frame p.lcd p.bus.vram
    simp only [endTransfer, drawn]
    exact ⟨long _, fun _ => shown, fun _ => shown, placed.chosen⟩
  | rest =>
    have shown := placed.shown (by rw [mode]; decide)
    have next := Position.line_succ (show p.lcd.line.val < 153 by omega)
    rw [mode] at lit
    dsimp only [endRest] at lit ⊢
    by_cases final : p.lcd.line + 1 = 144
    · rw [if_pos final] at lit ⊢
      exact ⟨long _, fun screen => absurd rfl screen, lit, placed.chosen⟩
    · have inside : p.lcd.line.val + 1 ≠ 144 := fun last => final (Fin.ext (next.trans last))
      rw [if_neg final] at lit ⊢
      exact ⟨long _, fun _ => by dsimp only; omega, lit, placed.chosen⟩
  | blank =>
    rw [mode] at lit
    dsimp only [endBlankLine] at lit ⊢
    by_cases final : p.lcd.line = 153
    · rw [if_pos final] at lit ⊢
      exact ⟨long _, fun _ => Position.topmost_lt, lit, placed.chosen⟩
    · rw [if_neg final] at lit ⊢
      exact ⟨long _, fun screen => absurd mode screen, lit, placed.chosen⟩

theorem started_placed (placed : p.lcd.Placed) : p.started.lcd.Placed := by
  unfold started
  split
  · exact placed
  · rename_i off
    have shown := placed.dark (Bool.eq_false_iff.mpr off)
    exact ⟨LcdMode.lt_length (show 0 < 80 by decide) .scan, fun _ => shown, fun _ => shown,
      placed.chosen⟩

/-- The panel at the end of a mode, before the next one begins. -/
theorem latched_placed (placed : p.lcd.Placed) (few : n ≤ 4) :
    p.lcd.dot + n - p.lcd.mode.length < 80 ∧
      Lcd.Placed { p.lcd with
        dot := p.lcd.dot + n - p.lcd.mode.length, latch := .ofRegisters p.bus.registers } := by
  have within := placed.within
  have long := p.lcd.mode.le_length
  exact ⟨by omega, by dsimp only; omega, placed.shown, placed.dark, placed.chosen⟩

theorem checkedAdvance_eq (placed : p.lcd.Placed) (few : n ≤ 4) :
    p.checkedAdvance n = .ok (p.advance n) := by
  have within := placed.within
  have line := p.lcd.mode.length_le
  unfold checkedAdvance advance
  rw [plus_ok (by omega), ok_bind]
  by_cases inside : p.lcd.dot + n < p.lcd.mode.length
  · rw [if_pos inside, if_pos inside, pure_eq]
  · have beyond := Nat.le_of_not_lt inside
    rw [if_neg inside, if_neg inside, minus_ok beyond, ok_bind]
    exact checkedEndMode_eq (latched_placed placed few).2

theorem advance_placed (placed : p.lcd.Placed) (on : p.lcd.on = true) (few : n ≤ 4) :
    (p.advance n).lcd.Placed := by
  unfold advance
  dsimp only
  split
  · rename_i inside
    exact ⟨inside, placed.shown, placed.dark, placed.chosen⟩
  · obtain ⟨early, latched⟩ := latched_placed placed few
    exact endMode_placed latched on early

theorem checkedSlice_eq (placed : p.lcd.Placed) (few : n ≤ 4) :
    p.checkedSlice n = .ok (p.slice n) := by
  rw [checkedSlice, checkedAdvance_eq (started_placed placed) few, ok_bind]
  cases wanted : p.wanted with
  | true => rw [slice_of_wanted wanted, if_pos rfl, pure_eq]
  | false =>
    rw [slice, wanted, if_neg Bool.false_ne_true, if_neg Bool.false_ne_true]
    split_ifs <;> rfl

theorem slice_placed (placed : p.lcd.Placed) (few : n ≤ 4) : (p.slice n).lcd.Placed := by
  cases wanted : p.wanted with
  | true =>
    obtain ⟨within, shown, dark, chosen⟩ :=
      advance_placed (started_placed placed) p.started_on few
    rw [slice_of_wanted wanted, raiseStatus_eq]
    exact ⟨within, shown, dark, chosen⟩
  | false =>
    rw [slice, wanted, if_neg (by decide)]
    split
    · exact ⟨LcdMode.lt_length (show 0 < 80 by decide) .rest, fun _ => Position.topmost_lt,
        fun _ => Position.topmost_lt, placed.chosen⟩
    · exact placed

/-- By induction on the slices, none crashes and each leaves the LCD in its place. -/
theorem checkedSlices_eq (placed : p.lcd.Placed) (k : Nat) :
    p.checkedSlices k = .ok (p.slices k) ∧ (p.slices k).lcd.Placed := by
  induction k generalizing p with
  | zero => exact ⟨rfl, placed⟩
  | succ k ih =>
    rw [checkedSlices, checkedSlice_eq placed le_rfl, ok_bind, slices]
    exact ih (slice_placed placed le_rfl)

theorem checkedStep_eq (placed : p.lcd.Placed) (n : Nat) : p.checkedStep n = .ok (p.step n) := by
  obtain ⟨whole, after⟩ := checkedSlices_eq placed (n / 4)
  have few : n % 4 ≤ 4 := (Nat.mod_lt n (by decide)).le
  rw [checkedStep, whole, ok_bind, checkedSlice_eq after few, step]
  split_ifs <;> rfl

end Panel

namespace Lcd

variable {s : Lcd}

/-- However many dots the LCD runs for and whatever the program has left on the bus, it stays inside
the frame and its tables. -/
theorem Placed.checkedStep (placed : s.Placed) (n : Nat) (bus : Bus) :
    s.checkedStep n bus = .ok (s.step n bus) :=
  Panel.checkedStep_eq placed n

theorem Placed.step (placed : s.Placed) (n : Nat) (bus : Bus) : (s.step n bus).lcd.Placed :=
  Panel.step_keeps (P := fun p => p.lcd.Placed) placed (fun few before => Panel.slice_placed before few) n

end Lcd

end DotMatrix
