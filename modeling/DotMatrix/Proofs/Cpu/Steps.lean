import DotMatrix.Proofs.Cpu.Control
import DotMatrix.Proofs.Interrupts

namespace DotMatrix

/-- The same processor `n` cycles later. -/
def Cpu.elapse (n : Nat) (s : Cpu) : Cpu := { s with cycles := s.cycles + n }

namespace Core

@[simp] theorem fetched_bus (s : Core) : s.fetched.bus = s.bus := by
  unfold fetched; split <;> rfl

@[simp] theorem settle_bus (announced : Bool) (s : Core) : (s.settle announced).bus = s.bus := by
  unfold settle; split <;> rfl

/-- Every way a slot can go. It idles, and may end a stop, or the opcode means nothing, or one
instruction is executed. -/
inductive Slotted (s : Core) : Except Fault Nat × Core → Prop
  | stop : s.cpu.stopped = true →
      Slotted s (.ok 4, { s with cpu.stopped := !s.bus.requested.contains .joypad })
  | halt : s.cpu.stopped = false → s.cpu.halted = true → Slotted s (.ok 4, s)
  | meaningless : s.cpu.stopped = false → s.cpu.halted = false →
      Instruction.decode s.immediate = none →
      Slotted s (.error ⟨s.immediate, s.cpu.pc⟩,
        { s.fetched with cpu.fault := some ⟨s.immediate, s.cpu.pc⟩ })
  | instruction {i} : s.cpu.stopped = false → s.cpu.halted = false →
      Instruction.decode s.immediate = some i →
      Slotted s (.ok (i.cost s.fetched), (i.run s.fetched).settle s.cpu.imeNext)

/-- Every slot goes one of these ways. -/
theorem slotted (s : Core) : Slotted s s.slot := by
  cases stopped : s.cpu.stopped with
  | true =>
    have result := Slotted.stop stopped
    cases joypad : s.bus.requested.contains .joypad with
    | true =>
      rw [joypad] at result
      simp only [slot, stopped, joypad, if_true]
      exact result
    | false =>
      have same : { s with cpu.stopped := !s.bus.requested.contains .joypad } = s := by
        rw [joypad, Bool.not_false, ← stopped]
      rw [same] at result
      simpa only [slot, stopped, joypad, if_true, Bool.false_eq_true, if_false] using result
  | false =>
    cases halted : s.cpu.halted with
    | true =>
      simpa only [slot, stopped, halted, if_true, Bool.false_eq_true, if_false]
        using Slotted.halt stopped halted
    | false =>
      simp only [slot, stopped, halted, Bool.false_eq_true, if_false, execute]
      cases meaning : Instruction.decode s.immediate with
      | none => exact .meaningless stopped halted meaning
      | some i => exact .instruction stopped halted meaning

theorem slot_of_decode {s : Core} {i : Instruction} (going : s.cpu.stopped = false)
    (running : s.cpu.halted = false) (meaning : Instruction.decode s.immediate = some i) :
    s.slot = (.ok (i.cost s.fetched), (i.run s.fetched).settle s.cpu.imeNext) := by
  simp only [slot, going, running, Bool.false_eq_true, if_false, execute, meaning]

/-- The interrupt that a step serves: the first one that is pending after the slot, if serving takes
any cycles. -/
def dispatched? (s : Core) : Option Interrupts :=
  match s.cpu.fault, s.slot with
  | none, (.ok _, t) => if t.cpu.stopped || t.serve.1 == 0 then none else t.bus.pending.first?
  | _, _ => none

/-- The same core `n` cycles later for its processor. -/
def elapse (n : Nat) (s : Core) : Core := { s with cpu := s.cpu.elapse n }

/-- A pending interrupt ends a halt even if it is not served. Nothing ends one during a stop. -/
def woken (s : Core) : Core :=
  { s with cpu.halted := s.cpu.halted && (s.cpu.stopped || s.bus.pending.first?.isNone) }

theorem woken_of_stopped {s : Core} (stopped : s.cpu.stopped = true) : s.woken = s := by
  simp only [woken, stopped, Bool.true_or, Bool.and_true]
  rw [← stopped]

theorem woken_of_none {s : Core} (quiet : s.bus.pending.first? = none) : s.woken = s := by
  simp only [woken, quiet, Option.isNone_none, Bool.or_true, Bool.and_true]

theorem woken_of_some {s : Core} {i : Interrupts} (running : s.cpu.stopped = false)
    (pending : s.bus.pending.first? = some i) : s.woken = { s with cpu.halted := false } := by
  simp only [woken, running, pending, Option.isNone_some, Bool.or_self, Bool.and_false]

theorem serve_of_none {s : Core} (quiet : s.bus.pending.first? = none) : s.serve = (0, s) := by
  simp only [serve, quiet]

/-- A pending interrupt ends a halt, and is served if interrupts are enabled. -/
theorem serve_of_some {s : Core} {i : Interrupts} (running : s.cpu.stopped = false)
    (pending : s.bus.pending.first? = some i) :
    s.serve = if s.cpu.ime then (20, s.woken.dispatch i) else (0, s.woken) := by
  simp only [serve, pending, woken_of_some running pending]

/-- A step is its slot and what is served after it, with the cycles of both. -/
theorem step_of_slot {s t : Core} {n : Nat} (unlocked : s.cpu.fault = none)
    (outcome : s.slot = (.ok n, t)) :
    s.step = (.ok (n + (if t.cpu.stopped then (0, t) else t.serve).1),
      elapse (n + (if t.cpu.stopped then (0, t) else t.serve).1)
        (if t.cpu.stopped then (0, t) else t.serve).2) := by
  simp only [step, unlocked, outcome]
  rfl

/-- Whether a step serves an interrupt is decided after its slot. -/
theorem dispatched?_of_slot {s t : Core} {n : Nat} (unlocked : s.cpu.fault = none)
    (outcome : s.slot = (.ok n, t)) :
    s.dispatched? = if t.cpu.stopped || !t.cpu.ime then none else t.bus.pending.first? := by
  simp only [dispatched?, unlocked, outcome]
  cases pending : t.bus.pending.first? with
  | none => rw [ite_self, ite_self]
  | some i =>
    have idle : (t.serve.1 == 0) = !t.cpu.ime := by
      simp only [serve, pending]
      cases t.cpu.ime <;> rfl
    rw [idle]

/-- A step that serves nothing is its slot, which at most wakes. -/
theorem step_of_none {s t : Core} {n : Nat} (unlocked : s.cpu.fault = none)
    (outcome : s.slot = (.ok n, t)) (quiet : s.dispatched? = none) :
    s.step = (.ok n, t.woken.elapse n) := by
  rw [dispatched?_of_slot unlocked outcome] at quiet
  rw [step_of_slot unlocked outcome]
  cases stopped : t.cpu.stopped with
  | true => simp only [woken_of_stopped stopped, if_true, Nat.add_zero]
  | false =>
    cases pending : t.bus.pending.first? with
    | none =>
      simp only [serve_of_none pending, woken_of_none pending, Bool.false_eq_true, if_false,
        Nat.add_zero]
    | some i =>
      have disabled : t.cpu.ime = false := by simpa [stopped, pending] using quiet
      simp only [serve_of_some stopped pending, disabled, Bool.false_eq_true, if_false, Nat.add_zero]

/-- An interrupt that is served was pending and enabled after the slot. -/
theorem enabled_of_some {s t : Core} {n : Nat} {i : Interrupts} (unlocked : s.cpu.fault = none)
    (outcome : s.slot = (.ok n, t)) (dispatched : s.dispatched? = some i) :
    t.cpu.stopped = false ∧ t.cpu.ime = true ∧ t.bus.pending.first? = some i := by
  rw [dispatched?_of_slot unlocked outcome] at dispatched
  split at dispatched
  · cases dispatched
  · simp_all

/-- A step that serves an interrupt ends at its handler, twenty cycles later. -/
theorem step_of_some {s t : Core} {n : Nat} {i : Interrupts} (unlocked : s.cpu.fault = none)
    (outcome : s.slot = (.ok n, t)) (dispatched : s.dispatched? = some i) :
    s.step = (.ok (n + 20), (dispatch i t.woken).elapse (n + 20)) := by
  obtain ⟨stopped, enabled, pending⟩ := enabled_of_some unlocked outcome dispatched
  rw [step_of_slot unlocked outcome]
  simp only [stopped, serve_of_some stopped pending, enabled, Bool.false_eq_true, if_false, if_true]

/-- Every way a step can go, with all that it changes. Either the processor is locked, or the
opcode means nothing, or nothing follows the slot, or an interrupt does. -/
inductive Stepped (s : Core) : Except Fault Nat × Core → Prop
  | locked {e} : s.cpu.fault = some e → Stepped s (.error e, s)
  | failed {e t} : s.cpu.fault = none → s.slot = (.error e, t) → Stepped s (.error e, t)
  | plain {n t} : s.cpu.fault = none → s.slot = (.ok n, t) → s.dispatched? = none →
      Stepped s (.ok n, t.woken.elapse n)
  | served {n t i} : s.cpu.fault = none → s.slot = (.ok n, t) → s.dispatched? = some i →
      Stepped s (.ok (n + 20), (dispatch i t.woken).elapse (n + 20))

/-- Every step goes one of these ways. -/
theorem stepped (s : Core) : Stepped s s.step := by
  cases locked : s.cpu.fault with
  | some e =>
    simp only [step, locked]
    exact .locked locked
  | none =>
    rcases outcome : s.slot with ⟨e | n, t⟩
    · simp only [step, locked, outcome]
      exact .failed locked outcome
    cases choice : s.dispatched? with
    | none =>
      rw [step_of_none locked outcome choice]
      exact .plain locked outcome choice
    | some i =>
      rw [step_of_some locked outcome choice]
      exact .served locked outcome choice

/-- Only an unlocked processor whose slot succeeds serves an interrupt. -/
theorem slot_of_dispatched {s : Core} {i : Interrupts} (dispatched : s.dispatched? = some i) :
    s.cpu.fault = none ∧ ∃ n t, s.slot = (.ok n, t) := by
  unfold dispatched? at dispatched
  split at dispatched
  · rename_i n t unlocked outcome
    exact ⟨unlocked, n, t, outcome⟩
  · cases dispatched

/-- What is seen of a step that serves an interrupt. It takes twenty cycles more than its slot,
takes the request back, leaves the address that the slot has come to on the stack and goes on in
the handler. -/
structure Enters (s : Core) (i : Interrupts) : Prop where
  cycles : ∃ n, s.slot.1 = .ok n ∧ s.step.1 = .ok (n + 20)
  pc : s.step.2.cpu.pc = i.handler
  sp : s.step.2.cpu.sp = s.slot.2.cpu.sp - 2
  ime : s.step.2.cpu.ime = false
  bus : s.step.2.bus =
    let t := s.slot.2
    (({ t.bus with requested := t.bus.requested.diff i }.write (t.cpu.sp - 1) (high t.cpu.pc)).write
      (t.cpu.sp - 2) (low t.cpu.pc))

/-- What is seen of a step that serves none: all but the clock and the end of a halt is the work of
its slot. -/
structure Passes (s : Core) : Prop where
  outcome : s.step.1 = s.slot.1
  pc : s.step.2.cpu.pc = s.slot.2.cpu.pc
  sp : s.step.2.cpu.sp = s.slot.2.cpu.sp
  ime : s.step.2.cpu.ime = s.slot.2.cpu.ime
  bus : s.step.2.bus = s.slot.2.bus

/-- An interrupt that is served is entered in the sight of the bus and the registers. -/
theorem enters_of_dispatched {s : Core} {i : Interrupts} (dispatched : s.dispatched? = some i) :
    s.Enters i := by
  obtain ⟨unlocked, n, t, outcome⟩ := slot_of_dispatched dispatched
  have stepped := step_of_some unlocked outcome dispatched
  constructor
  · exact ⟨n, congrArg Prod.fst outcome, congrArg Prod.fst stepped⟩
  all_goals rw [stepped]
  · rfl
  · rw [outcome]
    rfl
  · rfl
  · rw [outcome]
    rfl

/-- A step that serves nothing leaves no trace of a service. -/
theorem passes_of_quiet {s : Core} (unlocked : s.cpu.fault = none) (quiet : s.dispatched? = none) :
    s.Passes := by
  rcases outcome : s.slot with ⟨e | n, t⟩
  · have stepped : s.step = s.slot := by simp only [step, unlocked, outcome]
    constructor <;> rw [stepped]
  · have stepped := step_of_none unlocked outcome quiet
    constructor <;> rw [stepped, outcome] <;> rfl

end Core

end DotMatrix
