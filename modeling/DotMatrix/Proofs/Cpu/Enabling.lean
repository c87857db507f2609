import DotMatrix.Proofs.Cpu.Dispatch

namespace DotMatrix

/-- An instruction that leaves interrupts enabled has found them so, or is the return from a
handler. -/
theorem Instruction.steer_ime {i : Instruction} {pending : Bool} {c : Control}
    (enabled : (i.steer pending c).ime = true) :
    i ≠ disableInterrupts ∧ (c.ime = true ∨ i = retInterrupt) := by
  cases i with
  | disableInterrupts => cases enabled
  | retInterrupt => exact ⟨by simp, Or.inr rfl⟩
  | halt => exact ⟨by simp, Or.inl (steer_halt_ime.symm.trans enabled)⟩
  | enableInterrupts =>
    simp only [steer] at enabled
    split at enabled <;> exact ⟨by simp, Or.inl enabled⟩
  | _ => exact ⟨by simp, Or.inl enabled⟩

/-- One instruction alone announces that interrupts will be enabled. -/
theorem Instruction.steer_announces {i : Instruction} {pending : Bool} {c : Control}
    (before : c.imeNext = false) (after : (i.steer pending c).imeNext = true) :
    i = enableInterrupts := by
  cases i with
  | enableInterrupts => rfl
  | halt =>
    simp only [steer] at after
    split at after <;> simp [before] at after
  | _ => simp [steer, before] at after

namespace Control

variable {i : Instruction} {pending : Bool} {c : Control}

/-- Interrupts that are enabled after an instruction were so, or it is the return from a handler, or
they were announced. -/
theorem instruct_ime (enabled : (c.instruct i pending).ime = true) :
    i ≠ .disableInterrupts ∧ (c.ime = true ∨ i = .retInterrupt ∨ c.imeNext = true) := by
  simp only [instruct, settle_ime, Bool.or_eq_true, Bool.and_eq_true] at enabled
  rcases enabled with enabled | ⟨announced, next⟩
  · obtain ⟨other, before⟩ := Instruction.steer_ime enabled
    exact ⟨other, before.imp_right Or.inl⟩
  · refine ⟨?_, Or.inr (Or.inr announced)⟩
    rintro rfl
    cases next

/-- An announcement that stands after an instruction is its own. An earlier one is used up by it. -/
theorem instruct_imeNext (after : (c.instruct i pending).imeNext = true) :
    i = .enableInterrupts := by
  simp only [instruct, settle_imeNext, Bool.and_eq_true, Bool.not_eq_true'] at after
  exact Instruction.steer_announces (c := { c with doubleFetch := false }) after.2 after.1

/-- Disabling takes effect at once and withdraws an announcement. -/
theorem instruct_disable :
    (c.instruct .disableInterrupts pending).ime = false ∧
      (c.instruct .disableInterrupts pending).imeNext = false := by
  simp [instruct, Instruction.steer]

theorem instruct_enable (disabled : c.ime = false) (calm : c.imeNext = false) :
    (c.instruct .enableInterrupts pending).ime = false := by
  simp [instruct, Instruction.steer, disabled, calm]

end Control

namespace Core

/-- The instruction that a step executes, unless the processor is locked or idle or the opcode means
nothing. -/
def executed? (s : Core) : Option Instruction :=
  if s.cpu.fault.isSome || s.cpu.stopped || s.cpu.halted then none
  else Instruction.decode s.immediate

/-- Cores in a run of the processor, each with the instruction that the step before it has executed.
Between two steps anything may happen to the bus. -/
inductive Ran : Option Instruction → Core → Prop
  | boot (revision : Revision) (bus : Bus) : Ran none ⟨.boot revision, bus⟩
  | step {last : Option Instruction} {s : Core} : Ran last s → Ran s.executed? s.step.2
  | other {last : Option Instruction} {s : Core} (bus : Bus) : Ran last s →
      Ran last { s with bus := bus }

theorem Ran.reach {last : Option Instruction} {s : Core} (run : Ran last s) : s.Reach := by
  induction run with
  | boot revision bus => exact .boot revision bus
  | step _ ih => exact .step ih
  | other bus _ ih => exact .other bus ih

variable {s t : Core} {n : Nat}

/-- A slot is idle, with interrupts as they were, or it executes an instruction. -/
theorem Slotted.control (slot : Slotted s (.ok n, t)) (unlocked : s.cpu.fault = none) :
    (s.executed? = none ∧ t.cpu.ime = s.cpu.ime ∧ t.cpu.imeNext = s.cpu.imeNext ∧
      (s.cpu.halted = true ∨ s.cpu.stopped = true)) ∨
    ∃ i pending, s.executed? = some i ∧ t.cpu.control = s.cpu.control.instruct i pending := by
  cases slot with
  | stop stopped =>
    exact Or.inl ⟨by simp [executed?, stopped], rfl, rfl, Or.inr stopped⟩
  | halt _ halted =>
    exact Or.inl ⟨by simp [executed?, halted], rfl, rfl, Or.inl halted⟩
  | @instruction i going running meaning =>
    refine Or.inr ⟨i, _, ?_, instruction_control s i⟩
    simp [executed?, unlocked, going, running, meaning]

/-- What is announced after a step has been announced by it. -/
theorem Stepped.announced {r : Except Fault Nat × Core} (step : Stepped s r)
    (orderly : s.cpu.control.Orderly) (unlocked : r.2.cpu.fault = none)
    (announced : r.2.cpu.imeNext = true) : s.executed? = some .enableInterrupts := by
  have slot := s.slotted
  cases step with
  | locked locked => exact absurd (locked.symm.trans unlocked) (by simp)
  | failed _ outcome =>
    rw [outcome] at slot
    cases slot
    cases unlocked
  | served => cases announced
  | @plain n t before outcome =>
    rw [outcome] at slot
    change t.cpu.control.imeNext = true at announced
    rcases slot.control before with ⟨_, _, same, idle⟩ | ⟨i, pending, executed, control⟩
    · have calm : s.cpu.imeNext = false := (orderly.idle idle).1
      exact absurd (announced.symm.trans (same.trans calm)) (by decide)
    · rw [control] at announced
      rw [executed, Control.instruct_imeNext announced]

/-- An announcement stands for one step, the one behind the instruction that makes it. -/
theorem Ran.announced {last : Option Instruction} (run : Ran last s) (unlocked : s.cpu.fault = none)
    (announced : s.cpu.imeNext = true) : last = some .enableInterrupts := by
  induction run with
  | boot revision bus =>
    change (Cpu.boot revision).control.imeNext = true at announced
    rw [Cpu.boot_control] at announced
    cases announced
  | @step _ s before => exact s.stepped.announced before.reach.orderly unlocked announced
  | other _ _ ih => exact ih unlocked announced

/-- What is executed has found the processor running and is a meaningful opcode. -/
theorem ready_of_executed {i : Instruction} (executed : s.executed? = some i) :
    s.cpu.fault = none ∧ s.cpu.stopped = false ∧ s.cpu.halted = false ∧
      Instruction.decode s.immediate = some i := by
  unfold executed? at executed
  split at executed
  · cases executed
  rename_i ready
  simp only [Bool.or_eq_true, Option.isSome_iff_ne_none, not_or, not_not,
    Bool.not_eq_true] at ready
  exact ⟨ready.1.1, ready.1.2, ready.2, executed⟩

/-- The slot of an executed instruction steers the control state by that instruction. -/
theorem executed_slot {i : Instruction} (executed : s.executed? = some i) :
    s.cpu.fault = none ∧ ∃ n t pending, s.slot = (.ok n, t) ∧
      t.cpu.control = s.cpu.control.instruct i pending := by
  obtain ⟨unlocked, going, running, meaning⟩ := ready_of_executed executed
  exact ⟨unlocked, _, _, _, slot_of_decode going running meaning, instruction_control s i⟩

/-- A step serves nothing if its instruction leaves interrupts disabled. -/
theorem quiet_of_executed {i : Instruction} (executed : s.executed? = some i)
    (disabled : ∀ pending, (s.cpu.control.instruct i pending).ime = false) :
    s.dispatched? = none ∧ s.step.2.cpu.ime = false ∧
      ∃ pending, s.step.2.cpu.imeNext = (s.cpu.control.instruct i pending).imeNext := by
  obtain ⟨unlocked, n, t, pending, outcome, control⟩ := executed_slot executed
  have ime : t.cpu.ime = false := (congrArg Control.ime control).trans (disabled pending)
  have quiet : s.dispatched? = none := by
    rw [dispatched?_of_slot unlocked outcome, ime, Bool.not_false, Bool.or_true, if_pos rfl]
  rw [step_of_none unlocked outcome quiet]
  exact ⟨quiet, ime, pending, congrArg Control.imeNext control⟩

/-- What is served had interrupts enabled before the step, or was let in by its instruction. -/
theorem enabled_of_dispatched {i : Interrupts} (dispatched : s.dispatched? = some i) :
    s.cpu.fault = none ∧ s.executed? ≠ some .disableInterrupts ∧
      (s.cpu.ime = true ∨ s.executed? = some .retInterrupt ∨ s.cpu.imeNext = true) := by
  obtain ⟨unlocked, n, t, outcome⟩ := slot_of_dispatched dispatched
  obtain ⟨_, enabled, _⟩ := enabled_of_some unlocked outcome dispatched
  have slot := s.slotted
  rw [outcome] at slot
  refine ⟨unlocked, ?_⟩
  rcases slot.control unlocked with ⟨nothing, same, _⟩ | ⟨instruction, pending, executed, control⟩
  · rw [nothing]
    exact ⟨by simp, Or.inl (same.symm.trans enabled)⟩
  · have after := (congrArg Control.ime control).symm.trans enabled
    obtain ⟨other, cause⟩ := Control.instruct_ime after
    rw [executed]
    exact ⟨by simpa using other, cause.imp_right (Or.imp_left (congrArg Option.some))⟩

/-- An interrupt is served only if interrupts were enabled before the step, or if it returned from a
handler, or if enabling was announced by the very step before. Then the step enters the handler, and
otherwise it does what its slot does. The instruction that disables interrupts takes back what was
announced, and no announcement outlives the enabling. -/
theorem Ran.dispatch_enabled {last : Option Instruction} (run : Ran last s) :
    (∀ i, s.dispatched? = some i → s.Enters i ∧
      (s.cpu.ime = true ∧ s.executed? ≠ some .disableInterrupts ∨
        s.executed? = some .retInterrupt ∨
        last = some .enableInterrupts ∧ s.executed? ≠ some .disableInterrupts)) ∧
    (s.cpu.fault = none → s.dispatched? = none → s.Passes) ∧
    (s.executed? = some .enableInterrupts → s.cpu.ime = false → s.cpu.imeNext = false →
      s.dispatched? = none ∧ s.step.2.cpu.ime = false) ∧
    (s.executed? = some .disableInterrupts →
      s.dispatched? = none ∧ s.step.2.cpu.ime = false ∧ s.step.2.cpu.imeNext = false) ∧
    ¬(s.cpu.ime = true ∧ s.cpu.imeNext = true) := by
  refine ⟨?_, passes_of_quiet, ?_, ?_, ?_⟩
  · intro i dispatched
    obtain ⟨unlocked, other, cause⟩ := enabled_of_dispatched dispatched
    refine ⟨enters_of_dispatched dispatched, ?_⟩
    rcases cause with enabled | returned | announced
    · exact Or.inl ⟨enabled, other⟩
    · exact Or.inr (Or.inl returned)
    · exact Or.inr (Or.inr ⟨run.announced unlocked announced, other⟩)
  · intro executed disabled calm
    obtain ⟨quiet, ime, _⟩ :=
      quiet_of_executed executed fun _ => Control.instruct_enable disabled calm
    exact ⟨quiet, ime⟩
  · intro executed
    obtain ⟨quiet, ime, _, next⟩ :=
      quiet_of_executed executed fun _ => Control.instruct_disable.1
    exact ⟨quiet, ime, next.trans Control.instruct_disable.2⟩
  · rintro ⟨enabled, announced⟩
    have disabled : s.cpu.ime = false := run.reach.orderly.delayed announced
    exact absurd (enabled.symm.trans disabled) (by decide)

/-- The vertical blank is served by the step after the one that announces. -/
theorem dispatch_enabled_after_announcement : ∃ c, Cartridge.ofImage enableHaltImage = .ok c ∧
    Ran (some .enableInterrupts) (enableHaltNext c) ∧
    (enableHaltNext c).dispatched? = some .vblank ∧
    (enableHaltNext c).step.2.cpu.pc = 0x40 ∧ (enableHaltNext c).cpu.ime = false := by
  obtain ⟨c, accepted, enable, halt⟩ := exists_enableHalt
  have executed : (enableHaltStart c).executed? = some .enableInterrupts := by
    change Instruction.decode (enableHaltStart c).immediate = some .enableInterrupts
    rw [show (enableHaltStart c).immediate = c.read 0x100 from rfl, enable]
    rfl
  have run : Ran (some .enableInterrupts) (enableHaltNext c) := by
    rw [← enableHaltStart_step enable, ← executed]
    exact .step (.boot .standard _)
  have dispatched := enableHaltNext_dispatched halt
  obtain ⟨enters, -⟩ := run.dispatch_enabled.1 _ dispatched
  exact ⟨c, accepted, run, dispatched, enters.pc, rfl⟩

end Core

end DotMatrix
