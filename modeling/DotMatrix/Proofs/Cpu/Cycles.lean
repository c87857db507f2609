import DotMatrix.Proofs.Cpu.Latches

namespace DotMatrix

/-- Instructions on bits take between eight and sixteen cycles, in fours. -/
theorem BitInstruction.cost_bounds (i : BitInstruction) :
    4 ∣ i.cost ∧ 8 ≤ i.cost ∧ i.cost ≤ 16 := by
  cases i with
  | _ _ r =>
    simp only [cost]
    cases r <;> decide

namespace Instruction

/-- Time passes in units of four cycles, and every instruction takes one at least. -/
theorem cost_bounds (i : Instruction) (s : Core) :
    4 ∣ i.cost s ∧ 4 ≤ i.cost s ∧ i.cost s ≤ 24 := by
  cases i with
  | load dst src => cases dst <;> cases src <;> simp only [cost] <;> decide
  | loadByte r | increment r | decrement r =>
    simp only [cost]
    cases r <;> decide
  | arithmetic op r =>
    simp only [cost]
    cases r <;> decide
  | jumpRelative when | jump when | call when =>
    simp only [cost]
    split <;> decide
  | ret when =>
    cases when with
    | none => simp only [cost]; decide
    | some c => simp only [cost]; split <;> decide
  | prefixed =>
    obtain ⟨whole, lower, few⟩ := (BitInstruction.decode s.immediate).cost_bounds
    simp only [cost]
    omega
  | _ => simp only [cost]; decide

theorem steer_cycles (i : Instruction) (pending : Bool) (c : Control) :
    (i.steer pending c).cycles = c.cycles := by
  cases i with
  | halt | enableInterrupts => simp only [steer]; split <;> rfl
  | _ => rfl

end Instruction

theorem Control.instruct_cycles (c : Control) (i : Instruction) (pending : Bool) :
    (c.instruct i pending).cycles = c.cycles := by
  unfold instruct settle
  split <;> exact i.steer_cycles _ _

namespace Core

variable {s t : Core} {n : Nat}

/-- A slot takes no time of its own. What it costs is added when the step is over. -/
theorem Slotted.cycles (slot : Slotted s (.ok n, t)) :
    t.cpu.cycles = s.cpu.cycles ∧ 4 ∣ n ∧ 4 ≤ n ∧ n ≤ 24 := by
  cases slot with
  | stop | halt => exact ⟨rfl, by decide⟩
  | @instruction i =>
    have control := instruction_control s i
    exact ⟨(congrArg Control.cycles control).trans (Control.instruct_cycles _ _ _),
      i.cost_bounds s.fetched⟩

/-- A step reports the cycles by which it moves the clock on. They are those of an instruction or
of an idle slot, and twenty more if an interrupt is served. -/
theorem step_cycles (outcome : s.step.1 = .ok n) :
    s.step.2.cpu.cycles = s.cpu.cycles + n ∧ 4 ∣ n ∧ 4 ≤ n ∧ n ≤ 44 := by
  have slot := s.slotted
  have step := s.stepped
  generalize s.step = result at step outcome ⊢
  cases step with
  | locked | failed => cases outcome
  | @plain n t _ slotted =>
    cases outcome
    rw [slotted] at slot
    obtain ⟨same, whole, lower, few⟩ := slot.cycles
    exact ⟨congrArg (· + n) same, by omega⟩
  | @served n t i unlocked slotted =>
    cases outcome
    rw [slotted] at slot
    obtain ⟨same, whole, lower, few⟩ := slot.cycles
    exact ⟨congrArg (· + (n + 20)) same, by omega⟩

end Core

end DotMatrix
