import DotMatrix.Proofs.Cpu.Waiting
import DotMatrix.Proofs.Lcd.Window
import DotMatrix.Proofs.Machine.Clock

namespace DotMatrix.Machine

/-- What is seen of the LCD in a step. -/
def film (m : Machine) (r : Reel) : Reel :=
  match m.core.step with
  | (.ok n, s) => r.step n ⟨m.lcd, s.bus, false⟩
  | (.error _, _) => r

/-- A machine in a run from power-on or from a reset, with what has been seen of its LCD. Between
its steps anything may happen to all but the LCD. -/
inductive Filmed : Reel → Machine → Prop
  | start {m : Machine} : m.lcd = .initial → Filmed .empty m
  | step {reel : Reel} {m : Machine} : Filmed reel m → Filmed (m.film reel) m.step.2
  | other {reel : Reel} {m m' : Machine} : Filmed reel m → m'.lcd = m.lcd → Filmed reel m'

variable {reel : Reel} {m m' : Machine} {n : Nat}

theorem step_of_error {e : Fault} {s : Core} (outcome : m.core.step = (.error e, s)) :
    m.step = (.error e, { m with cpu := s.cpu, bus := s.bus }) := by
  unfold core at outcome
  simp only [step, outcome]

/-- The other parts leave the processor alone. -/
theorem step_cpu (m : Machine) : m.step.2.cpu = m.core.step.2.cpu := by
  rcases outcome : m.core.step with ⟨fault | n, s⟩
  · rw [step_of_error outcome]
  · rw [step_of_core outcome]
    rfl

theorem Filmed.lcd (filmed : Filmed reel m) : ∃ bus, m.lcd.Filmed reel bus := by
  induction filmed with
  | @start m fresh =>
    rw [fresh]
    exact ⟨m.bus, .start _⟩
  | @step reel m _ ih =>
    obtain ⟨bus, filmed⟩ := ih
    unfold film
    rcases outcome : m.core.step with ⟨e | n, s⟩
    · rw [step_of_error outcome]
      exact ⟨bus, filmed⟩
    · rw [step_of_core outcome]
      exact ⟨_, .dots n (.other s.bus filmed)⟩
  | other _ same ih =>
    rw [same]
    exact ih

/-- A processor that halts for good, since nothing is enabled, while the LCD is switched on. -/
structure Idle (m : Machine) : Prop where
  halting : m.cpu.Halting
  enabled : m.bus.enabled = 0
  wanted : m.bus.lcdWanted = true

theorem Idle.core_step (idle : m.Idle) : m.core.step = (.ok 4, m.core.elapse 4) :=
  Core.step_of_quiet idle.halting (Core.quiet_of_disabled idle.halting idle.enabled)

theorem Idle.step (idle : m.Idle) :
    m.step = (.ok 4, follow 4 { m with cpu := m.cpu.elapse 4 }) :=
  step_of_core idle.core_step

/-- No part of the machine changes which interrupts are enabled. -/
theorem follow_enabled (n : Nat) (m : Machine) : (m.follow n).bus.enabled = m.bus.enabled :=
  (follow_undisturbed n m).enabled

theorem follow_scenery (n : Nat) (m : Machine) : (m.follow n).bus.scenery = m.bus.scenery :=
  (follow_undisturbed n m).scenery

theorem Idle.scenery (idle : m.Idle) : m.step.2.bus.scenery = m.bus.scenery := by
  rw [idle.step]
  exact follow_scenery 4 _

theorem Idle.next (idle : m.Idle) : m.step.2.Idle := by
  have wanted : m.step.2.bus.lcdWanted = m.bus.lcdWanted :=
    congrArg (·.1.control.toNat.testBit 7) idle.scenery
  refine ⟨?_, ?_, wanted.trans idle.wanted⟩ <;> rw [idle.step]
  · exact idle.halting.elapse 4
  · exact (follow_enabled 4 _).trans idle.enabled

/-- An idle machine draws every line from what it has found at first. -/
theorem Idle.film (idle : m.Idle) (of : reel.Of m.bus.scenery) :
    (m.film reel).Of m.bus.scenery := by
  unfold Machine.film
  rw [idle.core_step]
  exact of.step rfl 4

/-- The LCD of an idle machine runs on, four dots a step. -/
theorem Idle.lit {base k : Nat} (idle : m.Idle) (filmed : Filmed reel m)
    (of : reel.Of m.bus.scenery) (lit : Lcd.Lit base k m.lcd m.bus) (j : Nat) :
    ∃ reel' m', m'.Idle ∧ Filmed reel' m' ∧ m'.bus.scenery = m.bus.scenery ∧
      reel'.Of m.bus.scenery ∧ Lcd.Lit base (k + 4 * j) m'.lcd m'.bus := by
  induction j with
  | zero => exact ⟨reel, m, idle, filmed, rfl, of, lit⟩
  | succ j ih =>
    obtain ⟨reel', m', idle, filmed, same, of, lit⟩ := ih
    rw [← same] at of ⊢
    refine ⟨_, m'.step.2, idle.next, filmed.step, idle.scenery, idle.film of, ?_⟩
    have wanted := idle.next.wanted
    rw [idle.step] at wanted ⊢
    exact (lit.dots 4).other _ wanted

end DotMatrix.Machine
