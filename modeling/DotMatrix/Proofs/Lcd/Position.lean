import DotMatrix.Lcd.Step
import Mathlib.Data.Fin.Basic

namespace DotMatrix

/-- The dot of a line at which a mode begins. -/
def LcdMode.start : LcdMode → Nat
  | scan | blank => 0
  | transfer => 80
  | rest => 252

theorem LcdMode.start_add_length_le (m : LcdMode) : m.start + m.length ≤ 456 := by
  cases m <;> decide

/-- Where the LCD stands, and how often it has gone down the screen. -/
structure Position where
  line : Fin 154
  mode : LcdMode
  dot : Nat
  frames : Nat
  deriving DecidableEq

namespace Position

/-- What comes after a mode. -/
def turn (p : Position) : Position :=
  match p.mode with
  | .scan => { p with mode := .transfer }
  | .transfer => { p with mode := .rest }
  | .rest =>
    if p.line + 1 = 144 then
      { p with line := p.line + 1, mode := .blank, frames := p.frames + 1 }
    else { p with line := p.line + 1, mode := .scan }
  | .blank =>
    if p.line = 153 then { p with line := 0, mode := .scan }
    else { p with line := p.line + 1 }

/-- Moves on by a few dots, as the LCD does, without a bus. -/
def advance (n : Nat) (p : Position) : Position :=
  if p.dot + n < p.mode.length then { p with dot := p.dot + n }
  else turn { p with dot := p.dot + n - p.mode.length }

/-- The line after `n` dots. A frame has 154 lines of 456 dots. -/
def lineAfter (n : Nat) : Nat := n % 70224 / 456

/-- The mode after `n` dots, by the line and the dot in it. -/
def modeAfter (n : Nat) : LcdMode :=
  if 144 ≤ lineAfter n then .blank
  else if n % 456 < 80 then .scan
  else if n % 456 < 252 then .transfer
  else .rest

/-- The dot in that mode. -/
def dotAfter (n : Nat) : Nat := n % 456 - (modeAfter n).start

/-- The frames that are complete. One is whenever line 144 begins. -/
def framesAfter (n : Nat) : Nat := (n + 4560) / 70224

/-- The position that belongs to `n` dots, with `base` frames before the first of them. -/
structure Reached (base n : Nat) (p : Position) : Prop where
  place : n % 70224 = p.line.val * 456 + p.mode.start + p.dot
  within : p.dot < p.mode.length
  blank : p.mode = .blank ↔ 144 ≤ p.line.val
  frames : p.frames = base + framesAfter n

theorem Reached.zero (base : Nat) : Reached base 0 ⟨0, .scan, 0, base⟩ where
  place := by simp [LcdMode.start]
  within := by simp [LcdMode.length]
  blank := by simp
  frames := by simp [framesAfter]

theorem Reached.inLine {base n : Nat} {p : Position} (reached : Reached base n p) :
    n % 456 = p.mode.start + p.dot := by
  have place := reached.place
  have within := reached.within
  have fits := p.mode.start_add_length_le
  omega

/-- The number of dots determines the position. -/
theorem Reached.eq {base n : Nat} {p : Position} (reached : Reached base n p) :
    p.line.val = lineAfter n ∧ p.mode = modeAfter n ∧ p.dot = dotAfter n ∧
      p.frames = base + framesAfter n := by
  have inLine := reached.inLine
  obtain ⟨place, within, blank, frames⟩ := reached
  have fits := p.mode.start_add_length_le
  have onLine : p.line.val = lineAfter n := by
    unfold lineAfter
    omega
  have inMode : p.mode = modeAfter n := by
    unfold modeAfter
    rw [← onLine]
    cases mode : p.mode with
    | blank => rw [if_pos (blank.mp mode)]
    | scan =>
      rw [mode] at blank within inLine
      rw [if_neg (mt blank.mpr (by decide)), if_pos]
      simp only [LcdMode.start, LcdMode.length] at within inLine
      omega
    | transfer =>
      rw [mode] at blank within inLine
      simp only [LcdMode.start, LcdMode.length] at within inLine
      rw [if_neg (mt blank.mpr (by decide)), if_neg (by omega), if_pos (by omega)]
    | rest =>
      rw [mode] at blank within inLine
      simp only [LcdMode.start, LcdMode.length] at within inLine
      rw [if_neg (mt blank.mpr (by decide)), if_neg (by omega), if_neg (by omega)]
  refine ⟨onLine, inMode, ?_, frames⟩
  unfold dotAfter
  rw [← inMode]
  omega

theorem line_succ {line : Fin 154} (short : line.val < 153) : (line + 1).val = line.val + 1 :=
  Fin.val_add_one_of_lt' (by omega)

/-- Fewer dots than any mode has cross at most one boundary. -/
theorem Reached.advance {base n k : Nat} {p : Position} (reached : Reached base n p)
    (few : k < 80) : Reached base (n + k) (p.advance k) := by
  obtain ⟨line, mode, dot, frames⟩ := p
  obtain ⟨place, within, blank, count⟩ := reached
  dsimp only at place within blank count
  have below := line.isLt
  have fits := mode.start_add_length_le
  unfold framesAfter at count
  unfold Position.advance
  dsimp only
  split
  · refine ⟨?_, ‹_›, blank, ?_⟩ <;> simp only [framesAfter] <;> omega
  rename_i crossed
  cases mode with
  | scan | transfer =>
    have screen := mt blank.mpr (by decide)
    simp only [LcdMode.start, LcdMode.length] at place within crossed
    dsimp only [turn]
    constructor <;> simp only [LcdMode.start, LcdMode.length, framesAfter, reduceCtorEq,
      false_iff] <;> omega
  | rest =>
    have screen := mt blank.mpr (by decide)
    simp only [LcdMode.start, LcdMode.length] at place within crossed
    have next := line_succ (show line.val < 153 by omega)
    dsimp only [turn]
    split
    · -- The count of frames moves here alone, where the place in the frame passes 65664.
      rename_i final
      rw [final] at next
      have last : line.val = 143 := (Nat.succ.inj next).symm
      constructor <;> simp only [LcdMode.start, LcdMode.length, framesAfter, true_iff] <;> omega
    · rename_i further
      have inside : line.val ≠ 143 := fun last => further (Fin.ext (by rw [next, last]; rfl))
      constructor <;> simp only [LcdMode.start, LcdMode.length, framesAfter, next, reduceCtorEq,
        false_iff] <;> omega
  | blank =>
    have under := blank.mp rfl
    simp only [LcdMode.start, LcdMode.length] at place within crossed
    dsimp only [turn]
    split
    · rename_i final
      have last : line.val = 153 := congrArg Fin.val final
      constructor <;> simp only [LcdMode.start, LcdMode.length, framesAfter, reduceCtorEq,
        false_iff, Fin.val_zero] <;> omega
    · rename_i further
      have inside : line.val ≠ 153 := fun last => further (Fin.ext last)
      have next := line_succ (show line.val < 153 by omega)
      constructor <;> simp only [LcdMode.start, LcdMode.length, framesAfter, next, true_iff] <;>
        omega

/-- A frame is completed when dot 65664 is reached, the first of line 144. -/
theorem framesAfter_lt_iff {m n : Nat} (few : n < 80) :
    framesAfter m < framesAfter (m + n) ↔ m % 70224 < 65664 ∧ 65664 ≤ m % 70224 + n := by
  have whole := Nat.div_add_mod m 70224
  have below := Nat.mod_lt m (show 70224 > 0 by decide)
  generalize m / 70224 = q at whole
  generalize m % 70224 = r at whole below ⊢
  subst whole
  unfold framesAfter
  rw [show 70224 * q + r + 4560 = r + 4560 + 70224 * q by omega,
    show 70224 * q + r + n + 4560 = r + n + 4560 + 70224 * q by omega,
    Nat.add_mul_div_left _ _ (by decide), Nat.add_mul_div_left _ _ (by decide)]
  omega

/-- Whether the LCD leaves the screen when the mode ends. -/
def last (p : Position) : Bool := p.mode = .rest ∧ p.line + 1 = 144

/-- Whether it does so within the next few dots. -/
def completes (n : Nat) (p : Position) : Bool := p.last && p.mode.length ≤ p.dot + n

/-- A frame is complete within the next dots exactly if their number says so. -/
theorem Reached.completes_iff {base m n : Nat} {p : Position} (reached : Reached base m p)
    (few : n < 80) : p.completes n = true ↔ framesAfter m < framesAfter (m + n) := by
  obtain ⟨line, mode, dot, frames⟩ := p
  obtain ⟨place, within, blank, count⟩ := reached
  dsimp only at place within blank count
  have fits := mode.start_add_length_le
  rw [framesAfter_lt_iff few, place, completes, last, Bool.and_eq_true, decide_eq_true_iff,
    decide_eq_true_iff]
  cases mode with
  | rest =>
    have screen := mt blank.mpr (by decide)
    have next := line_succ (show line.val < 153 by omega)
    have end144 : line + 1 = 144 ↔ line.val = 143 := by
      rw [Fin.ext_iff, next]
      exact Nat.succ_inj
    simp only [LcdMode.start, LcdMode.length, end144, true_and] at within ⊢
    omega
  | blank =>
    have under := blank.mp rfl
    simp only [reduceCtorEq, false_and, false_iff]
    omega
  | scan | transfer =>
    have screen := mt blank.mpr (by decide)
    simp only [LcdMode.start, LcdMode.length, reduceCtorEq, false_and, false_iff] at within ⊢
    omega

end Position

end DotMatrix
