import DotMatrix.Proofs.Cpu.Faults
import DotMatrix.Proofs.Cpu.Handlers
import Mathlib.Data.Nat.Bitwise

namespace DotMatrix

namespace Interrupts

theorem contains_joypad (s : Interrupts) : s.contains joypad = s.has 4 := by
  rw [contains, has, Bool.eq_iff_iff, beq_iff_eq, ← UInt8.toNat_inj, UInt8.toNat_and]
  change s.bits.toNat &&& 2 ^ 4 = 2 ^ 4 ↔ _
  rw [Nat.and_two_pow]
  cases s.bits.toNat.testBit 4 <;> simp

/-- A set is empty exactly if no line of it is served. -/
theorem isEmpty_iff {s : Interrupts} : s.isEmpty = true ↔ s.first? = none := by
  constructor
  · intro empty
    cases first : s.first? with
    | none => rfl
    | some t => exact absurd ((isEmpty_of_first? first).symm.trans empty) (by decide)
  · intro nothing
    have lines : ∀ i : Fin 8, s.has i = false := by
      have lowest := Option.map_eq_none_iff.mp nothing
      rw [lowest?, List.find?_eq_none] at lowest
      exact fun i => Bool.eq_false_iff.mpr (lowest i (List.mem_finRange i))
    have zero : s.bits = 0 := by
      refine UInt8.toNat_inj.mp (Nat.eq_of_testBit_eq fun i => ?_)
      rw [UInt8.toNat_zero, Nat.zero_testBit]
      by_cases within : i < 8
      · exact lines ⟨i, within⟩
      · exact has_of_ge s (Nat.le_of_not_lt within)
    rw [isEmpty, zero]
    rfl

theorem isEmpty_of_has {s : Interrupts} {i : Nat} (member : s.has i = true) : s.isEmpty = false := by
  by_contra nothing
  have zero : s.bits = 0 := by simpa [isEmpty] using nothing
  simp [has, zero] at member

end Interrupts

/-- If any line is due, one of them comes before all others that are. -/
theorem Bus.exists_first_due {s : Bus} (pending : s.pending.isEmpty = false) :
    ∃ i, s.Due i ∧ ∀ j < i, ¬s.Due j := by
  have first : s.pending.first? ≠ none := fun nothing => by
    rw [Interrupts.isEmpty_iff.mpr nothing] at pending
    cases pending
  obtain ⟨t, first⟩ := Option.ne_none_iff_exists'.mp first
  obtain ⟨i, member, rfl⟩ := Interrupts.first?_eq_some first
  obtain ⟨-, least⟩ := Interrupts.first?_eq_some_iff.mp first
  have bound : i.val < 5 := by
    rw [has_pending, Bool.and_eq_true, Bool.and_eq_true] at member
    exact of_decide_eq_true member.2.1
  refine ⟨⟨i, bound⟩, due_iff.mpr member, fun j less due => ?_⟩
  have absent := least ⟨j, j.isLt.trans (by decide)⟩ less
  exact absurd ((due_iff.mp due).symm.trans absent) (by decide)

namespace Cpu

theorem elapse_elapse (m n : Nat) (s : Cpu) : (s.elapse m).elapse n = s.elapse (m + n) := by
  simp only [elapse, Nat.add_assoc]

/-- It has halted, and nothing else concerns it. -/
structure Halting (s : Cpu) : Prop where
  unlocked : s.fault = none
  going : s.stopped = false
  halted : s.halted = true
  single : s.doubleFetch = false

/-- It has stopped. -/
structure Stopping (s : Cpu) : Prop where
  unlocked : s.fault = none
  stopped : s.stopped = true

variable {s : Cpu}

theorem Halting.elapse (halting : s.Halting) (n : Nat) : (s.elapse n).Halting :=
  ⟨halting.unlocked, halting.going, halting.halted, halting.single⟩

theorem Stopping.elapse (stopping : s.Stopping) (n : Nat) : (s.elapse n).Stopping :=
  ⟨stopping.unlocked, stopping.stopped⟩

end Cpu

namespace Core

/-- The lines that a step finds requested and enabled when it looks for interrupts. -/
def found (s : Core) : Interrupts := s.slot.2.bus.pending

variable {s : Core}

section Halting

variable (halting : s.cpu.Halting)
include halting

theorem slot_of_halting : s.slot = (.ok 4, s) := by
  simp only [slot, halting.going, halting.halted, if_true, Bool.false_eq_true, if_false]

/-- What can end a halt is what is pending on the bus as it stands. -/
theorem found_of_halting : s.found = s.bus.pending := by
  rw [found, slot_of_halting halting]

/-- Where no line is enabled, none is found. -/
theorem quiet_of_disabled (disabled : s.bus.enabled = 0) : s.found.isEmpty = true := by
  rw [found_of_halting halting, Bus.pending, disabled]
  exact beq_iff_eq.mpr UInt8.and_zero

/-- A step in a halt is what is served after four idle cycles. -/
theorem step_of_halting {n : Nat} {t : Core} (served : s.serve = (n, t)) :
    s.step = (.ok (4 + n), t.elapse (4 + n)) := by
  rw [step_of_slot halting.unlocked (slot_of_halting halting), halting.going, if_neg (by decide),
    served]

/-- Nothing is found, and the halt goes on. -/
theorem step_of_quiet (quiet : s.found.isEmpty = true) : s.step = (.ok 4, s.elapse 4) := by
  rw [found_of_halting halting, Interrupts.isEmpty_iff] at quiet
  exact step_of_halting halting (serve_of_none quiet)

/-- Something is found but may not be served. It only ends the halt. -/
theorem step_of_masked (pending : s.found.isEmpty = false) (disabled : s.cpu.ime = false) :
    s.step = (.ok 4, elapse 4 { s with cpu.halted := false }) := by
  rw [found_of_halting halting] at pending
  obtain ⟨i, due, least⟩ := Bus.exists_first_due pending
  have first := Bus.first_of_due due least
  have served := serve_of_some halting.going first
  rw [woken_of_some halting.going first, disabled, if_neg (by decide)] at served
  exact step_of_halting halting served

/-- The first line that is due ends the halt and is served. -/
theorem step_of_due (pending : s.found.isEmpty = false) (enabled : s.cpu.ime = true) :
    ∃ i, s.bus.Due i ∧ (∀ j < i, ¬s.bus.Due j) ∧ s.step = (.ok 24, (s.entered i).elapse 24) := by
  rw [found_of_halting halting] at pending
  obtain ⟨i, due, least⟩ := Bus.exists_first_due pending
  exact ⟨i, due, least, step_of_halting halting (serve_of_due enabled halting.going due least)⟩

end Halting

theorem serve_stopped (s : Core) : s.serve.2.cpu.stopped = s.cpu.stopped := by
  unfold serve
  split
  · rfl
  · dsimp only
    split <;> rfl

section Stopping

variable (stopping : s.cpu.Stopping)
include stopping

/-- Without a joypad request the stop goes on, and interrupts are not looked at. -/
theorem step_of_untouched (untouched : s.bus.requested.has 4 = false) :
    s.dispatched? = none ∧ s.step = (.ok 4, s.elapse 4) := by
  have outcome : s.slot = (.ok 4, s) := by
    simp only [slot, stopping.stopped, Interrupts.contains_joypad, untouched, if_true,
      Bool.false_eq_true, if_false]
  have quiet : s.dispatched? = none := by
    rw [dispatched?_of_slot stopping.unlocked outcome, stopping.stopped, Bool.true_or, if_pos rfl]
  refine ⟨quiet, ?_⟩
  rw [step_of_none stopping.unlocked outcome quiet, woken_of_stopped stopping.stopped]

/-- A joypad request ends the stop, whether or not an interrupt is served in the same step. -/
theorem step_of_touched (touched : s.bus.requested.has 4 = true) :
    ∃ n, s.step.1 = .ok n ∧ s.step.2.cpu.stopped = false := by
  have outcome : s.slot = (.ok 4, { s with cpu.stopped := false }) := by
    simp only [slot, stopping.stopped, Interrupts.contains_joypad, touched, if_true]
  rw [step_of_slot stopping.unlocked outcome, if_neg Bool.false_ne_true]
  exact ⟨_, rfl, serve_stopped _⟩

end Stopping

/-- A processor that waits is not locked: whatever locks it has been fetched while it ran. -/
theorem Reach.unlocked_of_waiting (reach : s.Reach)
    (waiting : s.cpu.halted = true ∨ s.cpu.stopped = true) : s.cpu.fault = none := by
  induction reach with
  | boot revision => exact congrArg Control.fault (Cpu.boot_control revision)
  | other _ _ ih => exact ih waiting
  | @step s _ ih =>
    cases locked : s.cpu.fault with
    | some fault =>
      rw [step_of_locked locked] at waiting ⊢
      exact ih waiting
    | none =>
      have step := s.stepped
      generalize s.step = result at step waiting ⊢
      rcases result with ⟨fault | n, t⟩
      · obtain ⟨going, running, -, -, rfl⟩ := step.meaningless locked
        change s.fetched.cpu.halted = true ∨ s.fetched.cpu.stopped = true at waiting
        simp [fetched_cpu, going, running] at waiting
      · exact step.unlocked

/-- A reachable processor that is halted waits with nothing delayed. -/
theorem Reach.halting (reach : s.Reach) (going : s.cpu.stopped = false)
    (halted : s.cpu.halted = true) : s.cpu.Halting where
  unlocked := reach.unlocked_of_waiting (Or.inl halted)
  going := going
  halted := halted
  single := (reach.orderly.idle (Or.inl halted)).2

theorem Reach.stopping (reach : s.Reach) (stopped : s.cpu.stopped = true) : s.cpu.Stopping :=
  ⟨reach.unlocked_of_waiting (Or.inr stopped), stopped⟩

end Core

end DotMatrix
