import DotMatrix.Proofs.Machine.Frames

namespace DotMatrix

open Position

/-- A step short of a mode completes at most one frame. -/
theorem Lcd.Reach.step_frames {lcd : Lcd} {bus : Bus} (reach : lcd.Reach bus) (bus' : Bus) {n : Nat}
    (few : n < 80) : (lcd.step n bus').lcd.frames = lcd.frames ∨
      (lcd.step n bus').lcd.frames = lcd.frames + 1 := by
  cases wanted : bus'.lcdWanted with
  | false => exact Or.inl (Panel.step_of_unwanted (p := ⟨lcd, bus', false⟩) wanted n).2
  | true =>
    obtain ⟨base, k, lit⟩ := reach.exists_lit wanted
    rw [(lit.dots n).frames, lit.frames]
    unfold framesAfter
    omega

namespace Machine

/-- The loop that waits for a frame later than number `start`, without a bound on its rounds. The
numbers are the cycles run, before and in the end. A sum that does not fit into 32 bits has no
rule. -/
inductive FrameRun (start : Nat) : Nat → Machine → Except Fault Unit → Nat → Machine → Prop
  | done {e : Nat} {m : Machine} : m.lcd.frames ≠ start → FrameRun start e m (.ok ()) e m
  | failed {e : Nat} {m m' : Machine} {fault : Fault} : m.lcd.frames = start →
      m.step = (.error fault, m') → FrameRun start e m (.error fault) e m'
  | dark {e n : Nat} {m m' : Machine} : m.lcd.frames = start → m.step = (.ok n, m') →
      e + n < 2 ^ 32 → m'.lcd.on = false → frameCycles ≤ e + n →
      FrameRun start e m (.ok ()) (e + n) m'
  | next {e n e' : Nat} {m m' m'' : Machine} {result : Except Fault Unit} :
      m.lcd.frames = start → m.step = (.ok n, m') → e + n < 2 ^ 32 →
      ¬(m'.lcd.on = false ∧ frameCycles ≤ e + n) → FrameRun start (e + n) m' result e' m'' →
      FrameRun start e m result e' m''

variable {start e e' n : Nat} {m m' : Machine} {fault : Fault} {result : Except Fault Unit}

/-- A failed step locks the processor and leaves the clock and the LCD. -/
theorem step_fault (stepped : m.step = (.error fault, m')) :
    m'.cpu.fault = some fault ∧ m'.cpu.cycles = m.cpu.cycles ∧ m'.lcd = m.lcd := by
  have core := m.core.stepped
  rcases outcome : m.core.step with ⟨f | n, s⟩
  · rw [step_of_error outcome] at stepped
    cases stepped
    rw [outcome] at core
    cases core with
    | locked locked => exact ⟨locked, rfl, rfl⟩
    | failed unlocked failed =>
      have slot := m.core.slotted
      rw [failed] at slot
      cases slot with
      | meaningless =>
        refine ⟨rfl, ?_, rfl⟩
        change m.core.fetched.cpu.cycles = m.cpu.cycles
        unfold Core.fetched
        split <;> rfl
  · rw [step_of_core outcome] at stepped
    cases stepped

theorem FrameRun.cycles (run : FrameRun start e m result e' m') :
    m'.cpu.cycles + e = m.cpu.cycles + e' := by
  induction run with
  | done => rfl
  | failed _ stepped => rw [(step_fault stepped).2.1]
  | dark _ stepped =>
    have cycles := (step_cycles stepped).1
    omega
  | next _ stepped _ _ _ ih =>
    have cycles := (step_cycles stepped).1
    omega

theorem FrameRun.elapsed (run : FrameRun start e m result e' m') : e ≤ e' := by
  induction run with
  | done | failed => exact Nat.le_refl _
  | dark => exact Nat.le_add_right _ _
  | next _ _ _ _ _ ih => exact (Nat.le_add_right _ _).trans ih

/-- It ends with a frame complete, or with the LCD off after a frame's time, or locked. -/
theorem FrameRun.outcome (run : FrameRun start e m result e' m') :
    (result = .ok () → m'.lcd.frames ≠ start ∨ m'.lcd.on = false ∧ frameCycles ≤ e') ∧
      ∀ fault, result = .error fault → m'.cpu.fault = some fault := by
  induction run with
  | done later => exact ⟨fun _ => Or.inl later, fun _ same => nomatch same⟩
  | failed _ stepped =>
    refine ⟨fun same => (nomatch same), fun _ same => ?_⟩
    cases same
    exact (step_fault stepped).1
  | dark _ _ _ off long => exact ⟨fun _ => Or.inr ⟨off, long⟩, fun _ same => nomatch same⟩
  | next _ _ _ _ _ ih => exact ih

theorem Reach.lcd {revision : Revision} {cartridge : Option Cartridge}
    (reach : Reach (boot revision cartridge) m) : ∃ bus, m.lcd.Reach bus := by
  induction reach with
  | start => exact ⟨_, .start (.boot revision cartridge)⟩
  | @step m _ ih =>
    obtain ⟨bus, reach⟩ := ih
    rcases outcome : m.core.step with ⟨f | n, s⟩
    · rw [step_of_error outcome]
      exact ⟨bus, reach⟩
    · rw [step_of_core outcome]
      exact ⟨_, .dots n (.other s.bus reach)⟩
  | reset => exact ⟨_, .start (.boot revision cartridge)⟩
  | _ => assumption

/-- The dots that an LCD which stays on needs until its next frame is complete, when it has run
`k`. -/
def dotsLeft (k : Nat) : Nat := 65664 + 70224 * framesAfter k - k

theorem dotsLeft_bounds (k : Nat) : 1 ≤ dotsLeft k ∧ dotsLeft k ≤ 70224 := by
  unfold dotsLeft framesAfter
  omega

/-- Dots that complete nothing bring the frame nearer. -/
theorem dotsLeft_add {k : Nat} (same : framesAfter (k + n) = framesAfter k) :
    dotsLeft (k + n) + n = dotsLeft k := by
  unfold dotsLeft
  rw [same]
  unfold framesAfter at same ⊢
  omega

/-- What holds whenever the loop looks for its frame after `e` cycles. When a frame's time is over
the LCD is on, and then it stays on until the frame is complete. -/
structure Awaits (start e : Nat) (m : Machine) : Prop where
  reach : ∃ bus, m.lcd.Reach bus
  frames : m.lcd.frames = start ∨ m.lcd.frames = start + 1
  soon : e < 2 * (frameCycles + 44)
  late : m.lcd.frames = start → e < frameCycles ∨
    ∃ base k bus, Lcd.Lit base k m.lcd bus ∧ e + dotsLeft k < 2 * frameCycles + 44

theorem Awaits.early (awaits : Awaits start e m) (missing : m.lcd.frames = start) :
    e + 45 < 2 * (frameCycles + 44) := by
  rcases awaits.late missing with short | ⟨base, k, bus, -, bound⟩
  · unfold frameCycles at *
    omega
  · have positive := (dotsLeft_bounds k).1
    unfold frameCycles at *
    omega

/-- One more step keeps what is awaited. An LCD that is switched on late begins a frame that still
fits. -/
theorem Awaits.step (awaits : Awaits start e m) (missing : m.lcd.frames = start)
    (stepped : m.step = (.ok n, m'))
    (going : ¬(m'.lcd.on = false ∧ frameCycles ≤ e + n)) : Awaits start (e + n) m' := by
  obtain ⟨bus, reach⟩ := awaits.reach
  have early := awaits.early missing
  obtain ⟨-, -, lower, few⟩ := step_cycles stepped
  have before : m.lcd.Reach m.core.step.2.bus := reach.other _
  have lcd := step_lcd stepped
  have frames := before.step_frames m.core.step.2.bus (n := n) (by omega)
  rw [← lcd, missing] at frames
  refine ⟨⟨_, lcd ▸ before.dots n⟩, frames, by omega, fun still => ?_⟩
  by_cases short : e + n < frameCycles
  · exact Or.inl short
  have on : m'.lcd.on = true := by
    by_contra off
    exact going ⟨Bool.eq_false_iff.mpr off, Nat.not_lt.mp short⟩
  have wanted : m.core.step.2.bus.lcdWanted = true := by
    rw [← before.step_on (n := n) (by omega), ← lcd, on]
  right
  -- An LCD that came on in this step has at most a frame to go; one that was on has come nearer.
  rcases awaits.late missing with less | ⟨base, k, bus, lit, bound⟩
  · obtain ⟨base, k, lit⟩ := before.exists_lit wanted
    have left := (dotsLeft_bounds (k + n)).2
    have soon : e + n + dotsLeft (k + n) < 2 * frameCycles + 44 := by
      unfold frameCycles at less ⊢
      omega
    rw [lcd]
    exact ⟨base, k + n, _, lit.dots n, soon⟩
  · have next := (lit.other _ wanted).dots n
    rw [← lcd] at next
    have same : framesAfter (k + n) = framesAfter k := by
      have first := lit.frames
      have second := next.frames
      omega
    have left := dotsLeft_add same
    exact ⟨base, k + n, _, next, by omega⟩

/-- The bound on the rounds is never what ends the loop. -/
theorem runUntilFrame_run {fuel : Nat} (awaits : Awaits start e m)
    (enough : 2 * (frameCycles + 44) ≤ e + 4 * fuel) :
    ∃ e', FrameRun start e m (runUntilFrame start fuel e m).1 e' (runUntilFrame start fuel e m).2 ∧
      e' < 2 * (frameCycles + 44) ∧
      ((runUntilFrame start fuel e m).2.lcd.frames = start ∨
        (runUntilFrame start fuel e m).2.lcd.frames = start + 1) := by
  induction fuel generalizing e m with
  | zero =>
    have soon := awaits.soon
    omega
  | succ fuel ih =>
    unfold runUntilFrame
    by_cases missing : m.lcd.frames = start
    · rw [if_pos missing]
      have early := awaits.early missing
      rcases stepped : m.step with ⟨fault | n, m'⟩
      · have same := congrArg Lcd.frames (step_fault stepped).2.2
        exact ⟨e, .failed missing stepped, awaits.soon, Or.inl (same.trans missing)⟩
      obtain ⟨-, -, lower, few⟩ := step_cycles stepped
      have fits : e + n < 2 ^ 32 := by
        unfold frameCycles at early
        omega
      dsimp only
      split
      · rename_i dark
        simp only [Bool.and_eq_true, Bool.not_eq_true', decide_eq_true_iff] at dark
        obtain ⟨bus, reach⟩ := awaits.reach
        have frames := (reach.other m.core.step.2.bus).step_frames m.core.step.2.bus (n := n)
          (by omega)
        rw [← step_lcd stepped, missing] at frames
        exact ⟨e + n, .dark missing stepped fits dark.1 dark.2, by omega, frames⟩
      · rename_i going
        simp only [Bool.and_eq_true, Bool.not_eq_true', decide_eq_true_iff] at going
        have next := awaits.step missing stepped going
        obtain ⟨e', run, soon, frames⟩ := ih next (by omega)
        exact ⟨e', .next missing stepped fits going run, soon, frames⟩
    · rw [if_neg missing]
      exact ⟨e, .done missing, awaits.soon, awaits.frames⟩

/-- The fuel of the loop is enough for every reachable machine. -/
theorem Reach.runToFrame_run {revision : Revision} {cartridge : Option Cartridge}
    (reach : Reach (boot revision cartridge) m) :
    ∃ e, FrameRun m.lcd.frames 0 m m.runToFrame.1 e m.runToFrame.2 ∧ e < 2 * (frameCycles + 44) ∧
      (m.runToFrame.2.lcd.frames = m.lcd.frames ∨
        m.runToFrame.2.lcd.frames = m.lcd.frames + 1) := by
  have awaits : Awaits m.lcd.frames 0 m :=
    ⟨reach.lcd, Or.inl rfl, by decide, fun _ => Or.inl (by decide)⟩
  exact runUntilFrame_run awaits (by decide)

/-- However the program switches the LCD, waiting for a frame comes to an end before the time of two
frames and two steps has passed, and no sum of cycles leaves 32 bits on the way. It ends with one
more frame complete, or with the LCD off after a frame's time in which none was, or with the
processor locked. -/
theorem Reach.runToFrame_returns {revision : Revision} {cartridge : Option Cartridge}
    (reach : Reach (boot revision cartridge) m) :
    ∃ e, FrameRun m.lcd.frames 0 m m.runToFrame.1 e m.runToFrame.2 ∧
      e < 2 * (frameCycles + 44) ∧ m.runToFrame.2.cpu.cycles = m.cpu.cycles + e ∧
      (m.runToFrame.1 = .ok () → m.runToFrame.2.lcd.frames = m.lcd.frames + 1 ∨
        m.runToFrame.2.lcd.frames = m.lcd.frames ∧ m.runToFrame.2.lcd.on = false ∧
          frameCycles ≤ e) ∧
      ∀ fault, m.runToFrame.1 = .error fault → m.runToFrame.2.cpu.fault = some fault := by
  obtain ⟨e, run, soon, frames⟩ := reach.runToFrame_run
  obtain ⟨ends, locked⟩ := run.outcome
  refine ⟨e, run, soon, run.cycles, fun returned => ?_, locked⟩
  rcases frames with same | more
  · obtain later | ⟨off, long⟩ := ends returned
    · exact absurd same later
    · exact Or.inr ⟨same, off, long⟩
  · exact Or.inl more

theorem runToFrame_returns_at_boot : ∃ e < 2 * (frameCycles + 44),
    FrameRun 0 0 (boot .standard none) (boot .standard none).runToFrame.1 e
      (boot .standard none).runToFrame.2 := by
  have reach : Reach (boot .standard none) (boot .standard none) := .start
  obtain ⟨e, run, soon, -⟩ := Reach.runToFrame_returns reach
  exact ⟨e, soon, run⟩

end Machine

end DotMatrix
