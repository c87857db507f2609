import DotMatrix.Proofs.Cpu.Calls
import DotMatrix.Proofs.Cpu.Faults
import DotMatrix.Proofs.Machine.FrameRun

namespace DotMatrix.Machine

/-- The loop that steps until `n` cycles have passed, without a bound on its rounds. The numbers are
the cycles run, before and in the end. -/
inductive CycleRun (n : Nat) : Nat → Machine → Except Fault Nat → Nat → Machine → Prop
  | done {e : Nat} {m : Machine} : n ≤ e → CycleRun n e m (.ok e) e m
  | failed {e : Nat} {m m' : Machine} {fault : Fault} : e < n → m.step = (.error fault, m') →
      CycleRun n e m (.error fault) e m'
  | next {e k e' : Nat} {m m' m'' : Machine} {result : Except Fault Nat} : e < n →
      m.step = (.ok k, m') → CycleRun n (e + k) m' result e' m'' → CycleRun n e m result e' m''

variable {n e e' : Nat} {m m' : Machine} {result : Except Fault Nat}

/-- The cycles that a run counts are those of the clock. -/
theorem CycleRun.cycles (run : CycleRun n e m result e' m') :
    m'.cpu.cycles + e = m.cpu.cycles + e' := by
  induction run with
  | done => rfl
  | failed _ stepped => rw [(step_fault stepped).2.1]
  | next _ stepped _ ih =>
    have cycles := (step_cycles stepped).1
    omega

/-- The last step begins before `n` cycles have passed, so that what is run beyond them is less than
a step. -/
theorem CycleRun.ends (run : CycleRun n e m result e' m') (whole : 4 ∣ e) (soon : e < n + 44)
    (zero : n = 0 → e = 0) :
    (∀ r, result = .ok r → r = e' ∧ 4 ∣ r ∧ n ≤ r ∧ r < n + 44 ∧ (n = 0 → r = 0)) ∧
      ∀ fault, result = .error fault → e' < n := by
  induction run with
  | done passed =>
    refine ⟨fun r same => ?_, fun _ same => nomatch same⟩
    cases same
    exact ⟨rfl, whole, passed, soon, zero⟩
  | failed early => exact ⟨fun _ same => (nomatch same), fun _ _ => early⟩
  | next early stepped _ ih =>
    obtain ⟨-, unit, -, few⟩ := step_cycles stepped
    exact ih (Nat.dvd_add whole unit) (by omega) (by omega)

/-- The bound on the rounds is never what ends the loop. -/
theorem runFor_run {fuel : Nat} (enough : n ≤ e + 4 * fuel) :
    ∃ e', CycleRun n e m (runFor n fuel e m).1 e' (runFor n fuel e m).2 := by
  induction fuel generalizing e m with
  | zero => exact ⟨e, .done (by omega)⟩
  | succ fuel ih =>
    unfold runFor
    by_cases early : e < n
    · rw [if_pos early]
      rcases stepped : m.step with ⟨fault | k, m'⟩
      · exact ⟨e, .failed early stepped⟩
      · obtain ⟨-, -, lower, -⟩ := step_cycles stepped
        obtain ⟨e', run⟩ := ih (e := e + k) (m := m') (by omega)
        exact ⟨e', .next early stepped run⟩
    · rw [if_neg early]
      exact ⟨e, .done (Nat.not_lt.mp early)⟩

/-- A step takes a multiple of four cycles, at least four and at most 44, and moves the clock by as
many. So a run of `n` cycles comes to an end. It overshoots by less than a step, or the processor
locks before the `n` cycles are over, and the clock moves by what was run. No sum of cycles on the
way is larger than the clock itself. -/
theorem runAtLeast_returns (m : Machine) :
    (∀ k m', m.step = (.ok k, m') →
      4 ∣ k ∧ 4 ≤ k ∧ k ≤ 44 ∧ m'.cpu.cycles = m.cpu.cycles + k) ∧
    ∀ n, ∃ e, CycleRun n 0 m (m.runAtLeast n).1 e (m.runAtLeast n).2 ∧
      (m.runAtLeast n).2.cpu.cycles = m.cpu.cycles + e ∧
      (∀ r, (m.runAtLeast n).1 = .ok r →
        r = e ∧ 4 ∣ r ∧ n ≤ r ∧ r < n + 44 ∧ (n = 0 → r = 0)) ∧
      ∀ fault, (m.runAtLeast n).1 = .error fault → e < n := by
  refine ⟨fun k m' stepped => ?_, fun n => ?_⟩
  · obtain ⟨cycles, whole, lower, few⟩ := step_cycles stepped
    exact ⟨whole, lower, few, cycles⟩
  · obtain ⟨e, run⟩ : ∃ e, CycleRun n 0 m (m.runAtLeast n).1 e (m.runAtLeast n).2 :=
      runFor_run (by omega)
    obtain ⟨returned, failed⟩ := run.ends (dvd_zero 4) (by omega) fun _ => rfl
    exact ⟨e, run, run.cycles, returned, failed⟩

/-- A program that begins with an opcode without a meaning. -/
theorem exists_meaningless :
    ∃ c m, (boot .standard (some c)).step = (.error ⟨0xD3, 0x100⟩, m) := by
  obtain ⟨c, first⟩ := Core.exists_start 0xD3
  have opcode : (boot .standard (some c)).core.immediate = 0xD3 := first
  have meaning : Instruction.decode (boot .standard (some c)).core.immediate = none := by
    rw [opcode]
    rfl
  have stepped := step_of_error (Core.step_of_meaningless rfl rfl rfl meaning)
  rw [opcode] at stepped
  exact ⟨c, _, stepped⟩

/-- A run of one cycle takes a whole instruction, here a restart. An opcode that means nothing locks
the processor before the cycle has passed. -/
theorem runAtLeast_returns_from_boot :
    (∃ m, (boot .standard none).step = (.ok 16, m) ∧ (boot .standard none).runAtLeast 1 = (.ok 16, m) ∧
      CycleRun 1 0 (boot .standard none) (.ok 16) 16 m ∧ m.cpu.cycles = 16) ∧
    ∃ c m, (boot .standard (some c)).runAtLeast 1 = (.error ⟨0xD3, 0x100⟩, m) ∧
      CycleRun 1 0 (boot .standard (some c)) (.error ⟨0xD3, 0x100⟩) 0 m ∧ m.cpu.cycles = 0 := by
  constructor
  · have meaning : Instruction.decode (boot .standard none).core.immediate = some (.restart 0x38) :=
      rfl
    have outcome := Core.slot_of_decode rfl rfl meaning
    have core := Core.step_of_none rfl outcome (Core.dispatched?_of_slot rfl outcome)
    obtain ⟨m, stepped⟩ : ∃ m, (boot .standard none).step = (.ok 16, m) := ⟨_, step_of_core core⟩
    have run : (boot .standard none).runAtLeast 1 = (.ok 16, m) := by
      simp only [runAtLeast, runFor, stepped, Nat.zero_add, if_pos Nat.one_pos]
    obtain ⟨steps, runs⟩ := runAtLeast_returns (boot .standard none)
    obtain ⟨e, loop, -, returned, -⟩ := runs 1
    rw [run] at loop returned
    obtain ⟨rfl, -⟩ := returned 16 rfl
    exact ⟨m, stepped, run, loop, (steps 16 m stepped).2.2.2⟩
  · obtain ⟨c, m, stepped⟩ := exists_meaningless
    have run : (boot .standard (some c)).runAtLeast 1 = (.error ⟨0xD3, 0x100⟩, m) := by
      simp only [runAtLeast, runFor, stepped, if_pos Nat.one_pos]
    obtain ⟨e, loop, cycles, -, failed⟩ := (runAtLeast_returns (boot .standard (some c))).2 1
    rw [run] at loop cycles failed
    obtain rfl : e = 0 := Nat.lt_one_iff.mp (failed _ rfl)
    exact ⟨c, m, run, loop, cycles⟩

end DotMatrix.Machine
