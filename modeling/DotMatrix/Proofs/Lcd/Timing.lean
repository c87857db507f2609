import DotMatrix.Proofs.Lcd.Slice

namespace DotMatrix

namespace Position

theorem framesAfter_mono {m n : Nat} (before : m ≤ n) : framesAfter m ≤ framesAfter n :=
  Nat.div_le_div_right (Nat.add_le_add_right before _)

/-- More frames are complete exactly if a first dot of line 144 lies in between. -/
theorem framesAfter_lt_iff_exists {m n : Nat} :
    framesAfter m < framesAfter n ↔ ∃ k, m < 65664 + 70224 * k ∧ 65664 + 70224 * k ≤ n := by
  unfold framesAfter
  constructor
  · intro more
    refine ⟨(m + 4560) / 70224, ?_, ?_⟩ <;> omega
  · rintro ⟨k, after, before⟩
    omega

end Position

open Position

/-- The LCD at work while the program keeps it on. It is `n` dots since it was switched on, with
`base` frames before. Those from `since` on belong to the current step, before which the vertical
blank was `asked` for or not. -/
structure Panel.Runs (base since : Nat) (asked : Bool) (n : Nat) (p : Panel) : Prop where
  wanted : p.wanted = true
  position : Reached base n p.started.lcd.position
  on : 1 ≤ n → p.lcd.on = true
  begun : since ≤ n
  finished : p.finished = true ↔ framesAfter since < framesAfter n
  vblank : p.bus.requested.has 0 = true ↔ asked = true ∨ framesAfter since < framesAfter n

namespace Panel

variable {base since n : Nat} {asked : Bool} {p : Panel}

theorem started_of_on (on : p.lcd.on = true) : p.started = p := if_pos on

theorem status_vblank (p : Panel) : p.status.has 0 = false := by
  rw [status, Interrupts.has_when, show Interrupts.stat.has 0 = false by decide, Bool.and_false]

/-- Of the slices, only one that leaves the screen asks for the vertical blank. -/
theorem sliceRequests_vblank {k : Nat} (wanted : p.wanted = true) :
    (p.sliceRequests k).has 0 = p.started.lcd.position.completes k := by
  rw [sliceRequests, if_pos wanted, Interrupts.has_union, Interrupts.has_when, status_vblank,
    show Interrupts.vblank.has 0 = true by decide, Bool.and_true, Bool.or_false]

theorem started_position (lcd : Lcd) (bus bus' : Bus) (finished finished' : Bool) :
    (started ⟨lcd, bus, finished⟩).lcd.position = (started ⟨lcd, bus', finished'⟩).lcd.position := by
  unfold started
  dsimp only
  split <;> rfl

/-- The next step begins with nothing finished, whatever has become of the bus. -/
theorem Runs.again (runs : Runs base since asked n p) (bus : Bus)
    (wanted : (bus.registers.stored .lcdc).toNat.testBit 7 = true) :
    Runs base n (bus.requested.has 0) n ⟨p.lcd, bus, false⟩ where
  wanted := wanted
  position := by
    rw [started_position p.lcd bus p.bus false p.finished]
    exact runs.position
  on := runs.on
  begun := Nat.le_refl n
  finished := by simp
  vblank := by simp

/-- A slice keeps the position in step with its dots, and finishes a frame when the number of
complete ones grows. -/
theorem Runs.slice {k : Nat} (runs : Runs base since asked n p) (few : k < 80) :
    Runs base since asked (n + k) (p.slice k) := by
  have on := slice_on (n := k) runs.wanted
  have completes := runs.position.completes_iff few
  have before := framesAfter_mono runs.begun
  have after := framesAfter_mono (Nat.le_add_right n k)
  constructor
  · rw [slice_wanted, runs.wanted]
  · rw [started_of_on on, slice_position runs.wanted]
    exact runs.position.advance few
  · exact fun _ => on
  · exact Nat.le_add_right_of_le runs.begun
  · -- The counts before, between and after are in order, so either part makes the whole differ.
    rw [slice_finished runs.wanted, Bool.or_eq_true, runs.finished, completes]
    omega
  · rw [slice_requested, Interrupts.has_union, Bool.or_eq_true, sliceRequests_vblank runs.wanted,
      runs.vblank, completes, or_assoc]
    have either : framesAfter since < framesAfter n ∨ framesAfter n < framesAfter (n + k) ↔
        framesAfter since < framesAfter (n + k) := by omega
    rw [either]

theorem Runs.slices (runs : Runs base since asked n p) (k : Nat) :
    Runs base since asked (n + 4 * k) (p.slices k) := by
  induction k generalizing n p with
  | zero => exact runs
  | succ k ih =>
    have next := ih (runs.slice (k := 4) (by decide))
    rwa [Nat.add_assoc, Nat.add_comm 4, ← Nat.mul_succ] at next

theorem Runs.step (runs : Runs base since asked n p) (k : Nat) :
    Runs base since asked (n + k) (p.step k) := by
  have most := runs.slices (k / 4)
  have parts := Nat.div_add_mod k 4
  unfold Panel.step
  dsimp only
  split
  · rename_i whole
    rw [whole, Nat.add_zero] at parts
    rwa [parts] at most
  · have rest := most.slice (k := k % 4) (by omega)
    rwa [Nat.add_assoc, parts] at rest

/-- An LCD that is off stands in line zero. -/
def OffAtZero (p : Panel) : Prop := p.lcd.on = false → p.lcd.line = 0

theorem OffAtZero.slice {p : Panel} (n : Nat) (off : p.OffAtZero) : (p.slice n).OffAtZero := by
  intro dark
  by_cases wanted : p.wanted = true
  · rw [slice_on wanted] at dark
    contradiction
  rw [Panel.slice, if_neg wanted] at dark ⊢
  by_cases on : p.lcd.on = true
  · rw [if_pos on]
    rfl
  · rw [if_neg on] at dark ⊢
    exact off dark

/-- An LCD that is off has forgotten the lines of the window and the status sources. -/
def Forgets (p : Panel) : Prop :=
  p.lcd.on = false → p.lcd.windowLine = 0 ∧ p.lcd.statusLine = false

theorem Forgets.slice {p : Panel} (n : Nat) (forgets : p.Forgets) : (p.slice n).Forgets := by
  intro dark
  by_cases wanted : p.wanted = true
  · rw [slice_on wanted] at dark
    contradiction
  rw [Panel.slice, if_neg wanted] at dark ⊢
  by_cases on : p.lcd.on = true
  · rw [if_pos on]
    exact ⟨rfl, rfl⟩
  · rw [if_neg on] at dark ⊢
    exact forgets dark

end Panel

namespace Lcd

/-- The LCD after power-on, with the dots that it has run and all that has become of the bus. -/
inductive Reach : Lcd → Bus → Prop
  | start (bus : Bus) : Reach .initial bus
  | dots {lcd : Lcd} {bus : Bus} (n : Nat) : Reach lcd bus → Reach (lcd.step n bus).lcd (lcd.step n bus).bus
  | other {lcd : Lcd} {bus : Bus} (bus' : Bus) : Reach lcd bus → Reach lcd bus'

/-- The LCD `n` dots after it was switched on. Since then the program has kept bit 7 of the control
register, whatever else it wrote. There were `base` frames before. -/
inductive Lit (base : Nat) : Nat → Lcd → Bus → Prop
  | on {lcd : Lcd} {bus : Bus} : Reach lcd bus → lcd.on = false → lcd.frames = base →
      (bus.registers.stored .lcdc).toNat.testBit 7 = true → Lit base 0 lcd bus
  | dots {k : Nat} {lcd : Lcd} {bus : Bus} (n : Nat) : Lit base k lcd bus →
      Lit base (k + n) (lcd.step n bus).lcd (lcd.step n bus).bus
  | other {k : Nat} {lcd : Lcd} {bus : Bus} (bus' : Bus) : Lit base k lcd bus →
      (bus'.registers.stored .lcdc).toNat.testBit 7 = true → Lit base k lcd bus'

/-- A reachable LCD that is off stands in line zero. -/
theorem Reach.offAtZero {lcd : Lcd} {bus : Bus} (reach : lcd.Reach bus) (finished : Bool) :
    Panel.OffAtZero ⟨lcd, bus, finished⟩ := by
  induction reach generalizing finished with
  | start => exact fun _ => rfl
  | dots n _ ih => exact Panel.step_keeps (ih false) (fun _ off => off.slice _) n
  | other _ _ ih => exact ih finished

theorem Reach.forgets {lcd : Lcd} {bus : Bus} (reach : lcd.Reach bus) (finished : Bool) :
    Panel.Forgets ⟨lcd, bus, finished⟩ := by
  induction reach generalizing finished with
  | start => exact fun _ => ⟨rfl, rfl⟩
  | dots n _ ih => exact Panel.step_keeps (ih false) (fun _ forgets => forgets.slice _) n
  | other _ _ ih => exact ih finished

/-- From switching on, the position is that of the dots run, whatever the program writes but bit 7.
-/
theorem Lit.runs {base k : Nat} {lcd : Lcd} {bus : Bus} (lit : Lit base k lcd bus) :
    Panel.Runs base k (bus.requested.has 0) k ⟨lcd, bus, false⟩ := by
  induction lit with
  | @on lcd bus reach off frames wanted =>
    -- It stands in line zero, and the first slice will put it at the first dot of that line.
    have line := reach.offAtZero false off
    have dark : ¬lcd.on = true := by simp [off]
    have position : (Panel.started ⟨lcd, bus, false⟩).lcd.position = ⟨0, .scan, 0, base⟩ := by
      rw [← frames, ← line, Panel.started, if_neg dark]
      rfl
    constructor
    · exact wanted
    · rw [position]
      exact .zero base
    all_goals simp
  | dots n _ ih =>
    have runs := ih.step n
    exact runs.again _ runs.wanted
  | other bus' _ wanted ih => exact ih.again bus' wanted

/-- However the dots are cut into steps, their number alone decides where the LCD stands after each
of them. A step asks for the vertical blank and completes a frame exactly if the first dot of line
144 is among its own. -/
theorem Lit.timing {base k n : Nat} {lcd : Lcd} {bus : Bus} (lit : Lit base k lcd bus)
    (begun : 1 ≤ k + n) :
    let p := lcd.step n bus
    p.lcd.line.val = lineAfter (k + n) ∧
    p.lcd.mode = modeAfter (k + n) ∧
    p.lcd.dot = dotAfter (k + n) ∧
    p.lcd.frames = base + framesAfter (k + n) ∧
    (p.bus.requested.has 0 = true ↔ bus.requested.has 0 = true ∨
      ∃ j, k < 65664 + 70224 * j ∧ 65664 + 70224 * j ≤ k + n) ∧
    (p.finished = true ↔ ∃ j, k < 65664 + 70224 * j ∧ 65664 + 70224 * j ≤ k + n) := by
  intro p
  have runs : Panel.Runs base k (bus.requested.has 0) (k + n) p := lit.runs.step n
  have position := runs.position
  rw [Panel.started_of_on (runs.on begun)] at position
  obtain ⟨line, mode, dot, frames⟩ := position.eq
  refine ⟨line, mode, dot, frames, ?_, ?_⟩
  · rw [runs.vblank, framesAfter_lt_iff_exists]
  · rw [runs.finished, framesAfter_lt_iff_exists]

/-- A step of three dots that begins on the last dot of the screen. -/
theorem Lit.timing_across_blank :
    ((initial.step 65663 (.boot .standard none)).lcd.step 3
      (initial.step 65663 (.boot .standard none)).bus).lcd.position = ⟨144, .blank, 2, 1⟩ ∧
    ((initial.step 65663 (.boot .standard none)).lcd.step 3
      (initial.step 65663 (.boot .standard none)).bus).finished = true := by
  have start : Lit 0 0 initial (.boot .standard none) := .on (.start _) rfl rfl (by decide)
  have lit := start.dots 65663
  obtain ⟨line, mode, dot, frames, -, finished⟩ := lit.timing (n := 3) (by decide)
  refine ⟨?_, finished.mpr ⟨0, by decide, by decide⟩⟩
  rw [position, mode, dot, frames, Position.mk.injEq]
  exact ⟨Fin.ext line, by decide⟩

end Lcd

end DotMatrix
