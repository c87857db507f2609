import DotMatrix.Proofs.Cpu.Latches

namespace DotMatrix

/-- A processor that is locked, if it is, on an opcode that means nothing. -/
def Cpu.Meaningless (s : Cpu) : Prop :=
  ∀ fault, s.fault = some fault → Instruction.decode fault.opcode = none

theorem Cpu.Meaningless.boot (revision : Revision) : (Cpu.boot revision).Meaningless := by
  intro fault locked
  cases revision <;> cases locked

theorem Instruction.steer_fault (i : Instruction) (pending : Bool) (c : Control) :
    (i.steer pending c).fault = c.fault := by
  cases i with
  | halt | enableInterrupts => simp only [steer]; split <;> rfl
  | _ => rfl

theorem Control.instruct_fault (c : Control) (i : Instruction) (pending : Bool) :
    (c.instruct i pending).fault = c.fault := by
  unfold instruct settle
  split <;> exact i.steer_fault _ _

namespace Core

variable {s t : Core}

theorem Slotted.fault {n : Nat} (slot : Slotted s (.ok n, t)) : t.cpu.fault = s.cpu.fault := by
  cases slot with
  | stop | halt => rfl
  | @instruction i =>
    have control := instruction_control s i
    exact (congrArg Control.fault control).trans (Control.instruct_fault _ _ _)

theorem dispatch_fault (i : Interrupts) (s : Core) : (dispatch i s).cpu.fault = s.cpu.fault := rfl

theorem served_fault (i : Interrupts) (n : Nat) (s : Core) :
    ((dispatch i s.woken).elapse n).cpu.fault = s.cpu.fault :=
  dispatch_fault i s.woken

/-- An opcode without a meaning fails the step and locks the processor, which names the opcode and
its address. -/
theorem step_of_meaningless (unlocked : s.cpu.fault = none) (going : s.cpu.stopped = false)
    (running : s.cpu.halted = false) (meaning : Instruction.decode s.immediate = none) :
    s.step = (.error ⟨s.immediate, s.cpu.pc⟩,
      { s.fetched with cpu.fault := some ⟨s.immediate, s.cpu.pc⟩ }) := by
  simp only [step, unlocked, slot, going, running, Bool.false_eq_true, if_false, execute, meaning]

/-- A locked processor fails every step in the same way, and changes nothing. -/
theorem step_of_locked {fault : Fault} (locked : s.cpu.fault = some fault) :
    s.step = (.error fault, s) := by
  simp only [step, locked]

/-- Nothing but the place of the next fetch changes when an opcode is fetched. -/
theorem fetched_cpu (s : Core) : s.fetched.cpu = { s.cpu with
    pc := if s.cpu.doubleFetch then s.cpu.pc else s.cpu.pc + 1
    doubleFetch := false } := by
  unfold fetched
  split
  · rfl
  · rename_i once
    have single : s.cpu.doubleFetch = false := by simpa using once
    simp only [skip, jump, single]

/-- A step that succeeds leaves the processor unlocked. -/
theorem Stepped.unlocked {n : Nat} (step : Stepped s (.ok n, t)) : t.cpu.fault = none := by
  have slot := s.slotted
  cases step with
  | plain unlocked outcome =>
    rw [outcome] at slot
    exact slot.fault.trans unlocked
  | @served m t i unlocked outcome =>
    rw [outcome] at slot
    exact (served_fault i (m + 20) t).trans (slot.fault.trans unlocked)

/-- A processor that was not locked has failed on an opcode that means nothing. It has fetched it and
nothing else. -/
theorem Stepped.meaningless {e : Fault} (step : Stepped s (.error e, t))
    (unlocked : s.cpu.fault = none) :
    s.cpu.stopped = false ∧ s.cpu.halted = false ∧ Instruction.decode s.immediate = none ∧
      e = ⟨s.immediate, s.cpu.pc⟩ ∧ t = { s.fetched with cpu.fault := some e } := by
  have slot := s.slotted
  cases step with
  | locked locked => exact absurd (locked.symm.trans unlocked) (Option.some_ne_none e)
  | failed _ outcome =>
    rw [outcome] at slot
    cases slot with
    | meaningless going running meaning => exact ⟨going, running, meaning, rfl, rfl⟩

/-- Nothing but an opcode without a meaning locks the processor. -/
theorem step_meaningless (s : Core) (before : s.cpu.Meaningless) : s.step.2.cpu.Meaningless := by
  have slot := s.slotted
  have step := s.stepped
  generalize s.step = result at step ⊢
  cases step with
  | locked => exact before
  | failed unlocked outcome =>
    rw [outcome] at slot
    cases slot with
    | meaningless _ _ meaning =>
      intro fault locked
      obtain rfl := Option.some.inj locked
      exact meaning
  | plain unlocked outcome =>
    rw [outcome] at slot
    intro fault locked
    exact before fault (slot.fault.symm.trans locked)
  | @served n t i unlocked outcome =>
    rw [outcome] at slot
    intro fault locked
    exact before fault (((served_fault i (n + 20) t).trans slot.fault).symm.trans locked)

end Core

end DotMatrix
