import DotMatrix.Proofs.Checked.Machine
import DotMatrix.Proofs.Machine.CycleRun

namespace DotMatrix.Machine

/-- A machine in a run without a failed step since power-on or since the last reset. Between the
steps anything may happen that leaves the processor alone. -/
inductive Flawless (start : Machine) : Machine → Prop
  | start : Flawless start start
  | step {m m' : Machine} {n : Nat} : Flawless start m → m.step = (.ok n, m') → Flawless start m'
  | reset {m : Machine} : Reach start m → Flawless start m.reset
  | other {m m' : Machine} : Flawless start m → Reach m m' → m'.cpu = m.cpu → Flawless start m'

/-- The ways to let time pass. -/
inductive Drive
  | step
  | frame
  | cycles (n : Nat) (positive : 0 < n)

/-- What a drive fails with, if it does, and the machine after it. -/
def drive (m : Machine) : Drive → Option Fault × Machine
  | .step => (failure m.step.1, m.step.2)
  | .frame => (failure m.runToFrame.1, m.runToFrame.2)
  | .cycles n _ => (failure (m.runAtLeast n).1, (m.runAtLeast n).2)

/-- What each of some drives fails with, if it does, and the machine after them. -/
def drives : List Drive → Machine → List (Option Fault) × Machine
  | [], m => ([], m)
  | d :: rest, m =>
    let first := m.drive d
    let later := drives rest first.2
    (first.1 :: later.1, later.2)

variable {m m' start : Machine} {fault : Fault} {revision : Revision}
  {cartridge : Option Cartridge}

/-- A locked machine does not reach a frame, and nothing of it moves. -/
theorem runToFrame_of_locked (locked : m.cpu.fault = some fault) :
    m.runToFrame = (.error fault, m) := by
  obtain ⟨rounds, enough⟩ :=
    Nat.exists_eq_succ_of_ne_zero (by decide : 2 * (frameCycles + 44) / 4 ≠ 0)
  rw [runToFrame, enough, runUntilFrame, if_pos rfl, step_of_locked locked]

theorem runAtLeast_of_locked (locked : m.cpu.fault = some fault) {n : Nat} (positive : 0 < n) :
    m.runAtLeast n = (.error fault, m) := by
  obtain ⟨rounds, rfl⟩ := Nat.exists_eq_succ_of_ne_zero positive.ne'
  rw [runAtLeast, runFor, if_pos positive, step_of_locked locked]

/-- However a locked machine is driven, it fails in the same way and stays. -/
theorem drive_of_locked (locked : m.cpu.fault = some fault) (d : Drive) :
    m.drive d = (some fault, m) := by
  cases d with
  | step => rw [drive, step_of_locked locked]; rfl
  | frame => rw [drive, runToFrame_of_locked locked]; rfl
  | cycles n positive => rw [drive, runAtLeast_of_locked locked positive]; rfl

/-- A locked machine stands still, and every drive fails with the same fault. -/
theorem drives_of_locked (locked : m.cpu.fault = some fault) (ds : List Drive) :
    m.drives ds = (ds.map fun _ => some fault, m) := by
  induction ds with
  | nil => rfl
  | cons d rest ih => rw [drives, drive_of_locked locked, ih, List.map_cons]

theorem step_unlocked {n : Nat} (stepped : m.step = (.ok n, m')) : m'.cpu.fault = none := by
  obtain ⟨outcome, rfl⟩ := core_of_step stepped
  have step := m.core.stepped
  rw [(Prod.ext outcome rfl : m.core.step = (.ok n, m.core.step.2))] at step
  exact step.unlocked

/-- What a machine is after its first failed step: the fault is known and its opcode has been
fetched. -/
def failed (m : Machine) : Machine := { m with
  cpu := { m.cpu with
    pc := if m.cpu.doubleFetch then m.cpu.pc else m.cpu.pc + 1
    doubleFetch := false
    fault := some ⟨m.bus.read m.cpu.pc, m.cpu.pc⟩ } }

/-- The first failed step is that of an opcode without a meaning. -/
theorem step_eq_failed (unlocked : m.cpu.fault = none) (stepped : m.step = (.error fault, m')) :
    m.cpu.stopped = false ∧ m.cpu.halted = false ∧
      Instruction.decode (m.bus.read m.cpu.pc) = none ∧
      fault = ⟨m.bus.read m.cpu.pc, m.cpu.pc⟩ ∧ m' = m.failed := by
  have step := m.core.stepped
  rcases outcome : m.core.step with ⟨e | n, s⟩
  · rw [step_of_error outcome] at stepped
    cases stepped
    rw [outcome] at step
    obtain ⟨going, running, meaning, rfl, rfl⟩ := step.meaningless unlocked
    refine ⟨going, running, meaning, rfl, ?_⟩
    simp only [Core.fetched_cpu, Core.fetched_bus]
    rfl
  · rw [step_of_core outcome] at stepped
    cases stepped

/-- Without a failed step nothing has locked the processor. -/
theorem Flawless.unlocked (run : Flawless (boot revision cartridge) m) : m.cpu.fault = none := by
  induction run with
  | start => exact congrArg Control.fault (Cpu.boot_control revision)
  | step _ stepped => exact step_unlocked stepped
  | @reset m => exact congrArg Control.fault (Cpu.boot_control m.revision)
  | other _ _ same ih => rw [same, ih]

/-- The first step that fails has met an opcode that means nothing, while the processor neither
halted nor stopped, and it names the opcode and its place. All else is as before it: the bus and
every part on it, the clock, and the registers except for the place of the next fetch. From then on
every drive fails with the same fault and changes nothing at all. Only a reset unlocks the
processor. -/
theorem Flawless.lockup (run : Flawless (boot revision cartridge) m) :
    ((∃ fault m', m.step = (.error fault, m')) ↔
      m.cpu.stopped = false ∧ m.cpu.halted = false ∧
        Instruction.decode (m.bus.read m.cpu.pc) = none) ∧
    ∀ fault m', m.step = (.error fault, m') →
      fault = ⟨m.bus.read m.cpu.pc, m.cpu.pc⟩ ∧
      m' = m.failed ∧
      (∀ ds, m'.drives ds = (ds.map fun _ => some fault, m')) ∧ m'.reset.cpu.fault = none := by
  have unlocked := run.unlocked
  refine ⟨⟨?_, ?_⟩, fun fault m' stepped => ?_⟩
  · rintro ⟨fault, m', stepped⟩
    obtain ⟨going, running, meaning, -, -⟩ := step_eq_failed unlocked stepped
    exact ⟨going, running, meaning⟩
  · rintro ⟨going, running, meaning⟩
    exact ⟨_, _, step_of_error (Core.step_of_meaningless unlocked going running meaning)⟩
  · obtain ⟨-, -, -, rfl, rfl⟩ := step_eq_failed unlocked stepped
    exact ⟨rfl, rfl, drives_of_locked rfl, congrArg Control.fault (Cpu.boot_control m.revision)⟩

/-- A program that begins with an opcode without a meaning. -/
theorem lockup_at_boot : ∃ c m, (boot .standard (some c)).step = (.error ⟨0xD3, 0x100⟩, m) ∧
    m.cpu.pc = 0x101 ∧ m.cpu.cycles = 0 ∧
    m.drives [.frame, .cycles 1000 (by decide), .step] =
      ([some ⟨0xD3, 0x100⟩, some ⟨0xD3, 0x100⟩, some ⟨0xD3, 0x100⟩], m) := by
  obtain ⟨c, m, stepped⟩ := exists_meaningless
  have run : Flawless (boot .standard (some c)) (boot .standard (some c)) := .start
  obtain ⟨-, rfl, stands, -⟩ := run.lockup.2 _ m stepped
  exact ⟨c, _, stepped, rfl, rfl, stands _⟩

end DotMatrix.Machine
