import DotMatrix.Proofs.Cpu.Steps

namespace DotMatrix

namespace Instruction

variable {i : Instruction} {pending : Bool} {c : Control}

/-- What an instruction announces comes with interrupts disabled, or was announced before. -/
theorem steer_imeNext (after : (i.steer pending c).imeNext = true) :
    c.imeNext = true ∨ (i.steer pending c).ime = false := by
  cases i with
  | halt => simp only [steer] at after; split at after <;> exact Or.inl after
  | disableInterrupts => exact Or.inr rfl
  | enableInterrupts =>
    simp only [steer] at after ⊢
    split
    · rename_i enabled
      rw [if_pos enabled] at after
      exact Or.inl after
    · rename_i disabled
      exact Or.inr (Bool.eq_false_iff.mpr disabled)
  | _ => exact Or.inl after

/-- Only a halt arms the double fetch. -/
theorem steer_doubleFetch (fresh : c.doubleFetch = false) :
    (i.steer pending c).doubleFetch = true ↔ i = halt ∧ c.ime = false ∧ pending = true := by
  cases i with
  | halt =>
    simp only [steer, true_and]
    split
    · rename_i fails
      simpa using fails
    · rename_i halts
      simpa [fresh] using halts
  | enableInterrupts => simp only [steer]; split <;> simp [fresh]
  | _ => simp [steer, fresh]

theorem steer_halt_ime : (steer halt pending c).ime = c.ime := by
  simp only [steer]
  split <;> rfl

/-- A halt that takes hold arms nothing, and neither does a stop. -/
theorem steer_idle (running : c.halted = false) (going : c.stopped = false)
    (fresh : c.doubleFetch = false)
    (idle : (i.steer pending c).halted = true ∨ (i.steer pending c).stopped = true) :
    (i.steer pending c).imeNext = c.imeNext ∧ (i.steer pending c).doubleFetch = false := by
  cases i with
  | stop => exact ⟨rfl, fresh⟩
  | halt =>
    simp only [steer] at idle ⊢
    split at idle
    · simp [running, going] at idle
    · rename_i halts
      rw [if_neg halts]
      exact ⟨rfl, fresh⟩
  | enableInterrupts => simp only [steer] at idle; split at idle <;> simp [running, going] at idle
  | _ => simp [steer, running, going] at idle

end Instruction

namespace Control

/-- An announcement that was made before takes effect. -/
def settle (announced : Bool) (c : Control) : Control :=
  if announced && c.imeNext then { c with ime := true, imeNext := false } else c

@[simp] theorem settle_ime (announced : Bool) (c : Control) :
    (c.settle announced).ime = (c.ime || announced && c.imeNext) := by
  unfold settle
  cases announced <;> cases c.imeNext <;> simp

@[simp] theorem settle_imeNext (announced : Bool) (c : Control) :
    (c.settle announced).imeNext = (c.imeNext && !announced) := by
  unfold settle
  cases announced <;> cases next : c.imeNext <;> simp [next]

@[simp] theorem settle_doubleFetch (announced : Bool) (c : Control) :
    (c.settle announced).doubleFetch = c.doubleFetch := by
  unfold settle; split <;> rfl

@[simp] theorem settle_halted (announced : Bool) (c : Control) :
    (c.settle announced).halted = c.halted := by
  unfold settle; split <;> rfl

@[simp] theorem settle_stopped (announced : Bool) (c : Control) :
    (c.settle announced).stopped = c.stopped := by
  unfold settle; split <;> rfl

/-- Nothing that is delayed goes on through a halt or a stop, and enabling is delayed only while
interrupts are disabled. -/
structure Orderly (c : Control) : Prop where
  idle : c.halted = true ∨ c.stopped = true → c.imeNext = false ∧ c.doubleFetch = false
  delayed : c.imeNext = true → c.ime = false

/-- The control state after an instruction, its fetch and the delayed enabling included. -/
def instruct (c : Control) (i : Instruction) (pending : Bool) : Control :=
  (i.steer pending { c with doubleFetch := false }).settle c.imeNext

/-- An instruction keeps the latches in order, since only a running processor executes one. -/
theorem Orderly.instruct {c : Control} (running : c.halted = false) (going : c.stopped = false)
    (i : Instruction) (pending : Bool) : (c.instruct i pending).Orderly where
  idle := by
    intro idle
    simp only [Control.instruct, settle_halted, settle_stopped, settle_doubleFetch,
      settle_imeNext] at idle ⊢
    obtain ⟨next, fetch⟩ :=
      Instruction.steer_idle (c := { c with doubleFetch := false }) running going rfl idle
    exact ⟨by rw [next, Bool.and_not_self], fetch⟩
  delayed := by
    intro after
    simp only [Control.instruct, settle_imeNext, settle_ime, Bool.and_eq_true,
      Bool.not_eq_true'] at after ⊢
    obtain ⟨next, first⟩ := after
    rcases Instruction.steer_imeNext next with before | disabled
    · exact absurd (before.symm.trans first) (by decide)
    · rw [disabled, first]
      rfl

/-- A halt that fails and yet leaves interrupts enabled has come while enabling was delayed. -/
theorem instruct_doubleFetch {c : Control} {i : Instruction} {pending : Bool}
    (orderly : c.Orderly) (enabled : (c.instruct i pending).ime = true)
    (requested : i = .halt → pending = true) :
    (c.instruct i pending).doubleFetch = true ↔ i = .halt ∧ c.imeNext = true := by
  simp only [instruct, settle_doubleFetch]
  rw [Instruction.steer_doubleFetch rfl]
  constructor
  · rintro ⟨rfl, disabled, _⟩
    change c.ime = false at disabled
    cases next : c.imeNext with
    | true => exact ⟨rfl, rfl⟩
    | false => simp [instruct, Instruction.steer_halt_ime, disabled, next] at enabled
  · rintro ⟨rfl, next⟩
    exact ⟨rfl, orderly.delayed next, requested rfl⟩

end Control

namespace Core

@[simp] theorem fetched_control (s : Core) :
    s.fetched.cpu.control = { s.cpu.control with doubleFetch := false } := by
  unfold fetched
  split
  · rfl
  · rename_i once
    have same : s.cpu.doubleFetch = false := by simpa using once
    change s.cpu.control = _
    simp only [Cpu.control, same]

theorem settle_control (announced : Bool) (s : Core) :
    (s.settle announced).cpu.control = s.cpu.control.settle announced := by
  unfold settle Control.settle
  by_cases due : (announced && s.cpu.imeNext) = true
  · rw [if_pos due, if_pos (show (announced && s.cpu.control.imeNext) = true from due)]
    rfl
  · rw [if_neg due, if_neg (show ¬(announced && s.cpu.control.imeNext) = true from due)]

/-- What an executed instruction does to the control state depends on that state and on whether an
interrupt is pending. -/
theorem instruction_control (s : Core) (i : Instruction) :
    ((i.run s.fetched).settle s.cpu.imeNext).cpu.control =
      s.cpu.control.instruct i (!s.bus.pending.isEmpty) := by
  rw [settle_control, Instruction.run_control, fetched_control, fetched_bus]
  rfl

/-- A slot keeps the latches in order. -/
theorem Slotted.orderly {s : Core} {r : Except Fault Nat × Core} (slot : Slotted s r)
    (orderly : s.cpu.control.Orderly) : r.2.cpu.control.Orderly := by
  cases slot with
  | stop stopped => exact ⟨fun _ => orderly.idle (Or.inr stopped), orderly.delayed⟩
  | halt => exact orderly
  | meaningless =>
    change ({ s.fetched.cpu.control with fault := _ } : Control).Orderly
    rw [fetched_control]
    exact ⟨fun idle => ⟨(orderly.idle idle).1, rfl⟩, orderly.delayed⟩
  | instruction going running =>
    rw [instruction_control]
    exact Control.Orderly.instruct running going _ _

theorem Stepped.orderly {s : Core} {r : Except Fault Nat × Core} (step : Stepped s r)
    (orderly : s.cpu.control.Orderly) : r.2.cpu.control.Orderly := by
  have slot := s.slotted
  cases step with
  | locked => exact orderly
  | failed _ outcome =>
    rw [outcome] at slot
    exact slot.orderly orderly
  | plain _ outcome =>
    rw [outcome] at slot
    have after := slot.orderly orderly
    refine ⟨fun idle => after.idle ?_, after.delayed⟩
    exact idle.imp_left fun halted => (Bool.and_eq_true_iff.mp halted).1
  | @served n t i unlocked outcome choice =>
    obtain ⟨going, _, pending⟩ := enabled_of_some unlocked outcome choice
    have after : ((dispatch i t.woken).elapse (n + 20)).cpu.control =
        { t.cpu.control with
          cycles := t.cpu.cycles + (n + 20), ime := false, imeNext := false, halted := false } := by
      rw [woken_of_some going pending]
      rfl
    rw [after]
    refine ⟨fun idle => ?_, fun next => by cases next⟩
    rcases idle with halted | stopped
    · cases halted
    · exact absurd (going.symm.trans stopped) (by decide)

/-- Cores that come about when steps of the processor alternate with whatever else happens to the
bus: any memory contents, any requests, any change of what is enabled. -/
inductive Reach : Core → Prop
  | boot (revision : Revision) (bus : Bus) : Reach ⟨.boot revision, bus⟩
  | step {s : Core} : Reach s → Reach s.step.2
  | other {s : Core} (bus : Bus) : Reach s → Reach { s with bus := bus }

/-- The latches of a reachable processor are in order. -/
theorem Reach.orderly {s : Core} (reach : s.Reach) : s.cpu.control.Orderly := by
  induction reach with
  | boot revision bus =>
    rw [Cpu.boot_control]
    exact ⟨fun idle => by simp at idle, fun next => by cases next⟩
  | step _ ih => exact (stepped _).orderly ih
  | other _ _ ih => exact ih

end Core

end DotMatrix
