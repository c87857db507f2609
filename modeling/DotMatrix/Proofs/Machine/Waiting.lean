import DotMatrix.Proofs.Cpu.Waiting
import DotMatrix.Proofs.Machine.Frames

namespace DotMatrix.Machine

variable {m m' m'' start : Machine} {revision : Revision} {cartridge : Option Cartridge} {k : Nat}

/-- The processor of a reachable machine is reachable. -/
theorem Reach.core (reach : Reach (boot revision cartridge) m) : m.core.Reach := by
  induction reach with
  | start => exact .boot revision (.boot revision cartridge)
  | @step m _ ih =>
    have next := ih.step.other m.step.2.bus
    rwa [← step_cpu] at next
  | @reset m => exact .boot m.revision (m.bus.reset m.revision)
  | press _ _ ih | release _ _ ih | attachDisplay _ ih | drainDisplay _ ih | drainSerial _ ih =>
    exact ih
  | access _ _ ih | drainSound _ ih => exact ih.other _

theorem Reach.trans (first : Reach start m) (second : Reach m m') : Reach start m' := by
  induction second with
  | start => exact first
  | step _ ih => exact ih.step
  | reset _ ih => exact ih.reset
  | press buttons _ ih => exact ih.press buttons
  | release buttons _ ih => exact ih.release buttons
  | access _ next ih => exact ih.access next
  | attachDisplay _ ih => exact ih.attachDisplay
  | drainDisplay _ ih => exact ih.drainDisplay
  | drainSound _ ih => exact ih.drainSound
  | drainSerial _ ih => exact ih.drainSerial

/-- What `m` comes to in so many steps that all begin `quiet`. Between them anything may happen that
leaves the processor alone. -/
inductive Waits (quiet : Machine → Prop) (m : Machine) : Nat → Machine → Prop
  | start : Waits quiet m 0 m
  | step {k : Nat} {m' : Machine} : Waits quiet m k m' → quiet m' → Waits quiet m (k + 1) m'.step.2
  | other {k : Nat} {m' m'' : Machine} : Waits quiet m k m' → Reach m' m'' → m''.cpu = m'.cpu →
      Waits quiet m k m''

/-- All parts but the processor, which leaves them as they are in `m`, have moved on by `n` cycles.
The LCD takes its turn first, then the timer, then the serial unit, and last the lines of the joypad
are brought up to date. -/
structure Advanced (n : Nat) (m m' : Machine) : Prop where
  lcd : m'.lcd = (m.lcd.step n m.bus).lcd
  display : m'.display =
    if (m.lcd.step n m.bus).finished then m.display.map (·.push m'.lcd.front) else m.display
  divider : m'.bus.timer.divider = m.bus.timer.divider + UInt16.ofNat n
  serial : m'.serial = (m.serial.step n ((m.lcd.step n m.bus).bus.stepTimer n)).1
  joypad : (m'.joypad, m'.bus) =
    m.joypad.update (m.serial.step n ((m.lcd.step n m.bus).bus.stepTimer n)).2

/-- Four cycles pass. Of the processor only the clock takes notice, but everything else moves on. -/
structure Idles (m : Machine) : Prop where
  step : m.step = (.ok 4, follow 4 { m with cpu := m.cpu.elapse 4 })
  advanced : m.Advanced 4 m.step.2

/-- The first line that is due is served. Everything else moves on by the time that this takes. -/
def Serves (m : Machine) : Prop :=
  ∃ i, m.bus.Due i ∧ (∀ j < i, ¬m.bus.Due j) ∧
    m.step = (.ok 24, follow 24 { m with
      cpu := (m.core.entered i).cpu.elapse 24
      bus := (m.core.entered i).bus }) ∧
    { m with bus := (m.core.entered i).bus }.Advanced 24 m.step.2

/-- The same machine with its processor awake, four cycles later for it. -/
def awakened (m : Machine) : Machine := { m with cpu := { m.cpu.elapse 4 with halted := false } }

/-- The halt ends without an interrupt, and what comes next is executed. -/
structure Resumes (m : Machine) : Prop where
  step : m.step = (.ok 4, follow 4 m.awakened)
  advanced : m.Advanced 4 m.step.2
  requests : ∀ i, m.bus.requested.has i = true → m.step.2.bus.requested.has i = true
  unlocked : m.step.2.cpu.fault = none
  executes : m.step.2.core.slot = m.step.2.core.execute
  single : m.step.2.cpu.doubleFetch = false

/-- Whatever the processor has come to, the other parts follow it. -/
theorem follow_advanced (n : Nat) (m : Machine) (cpu : Cpu) :
    m.Advanced n (follow n { m with cpu }) :=
  ⟨rfl, rfl, follow_divider n _, rfl, rfl⟩

variable {quiet : Machine → Prop}

theorem Waits.reach (waits : Waits quiet m k m') (reach : Reach start m) : Reach start m' := by
  induction waits with
  | start => exact reach
  | step _ _ ih => exact ih.step
  | other _ others _ ih => exact ih.trans others

/-- A processor that would do nothing in any quiet step does nothing during the whole wait. -/
theorem Waits.cpu {P : Cpu → Prop} (waits : Waits quiet m k m') (still : P m.cpu)
    (keeps : ∀ s n, P s → P (s.elapse n)) (idles : ∀ m', P m'.cpu → quiet m' → m'.Idles) :
    m'.cpu = m.cpu.elapse (4 * k) := by
  induction waits with
  | start => rfl
  | @step k m' _ calm ih =>
    have idle := idles m' (ih ▸ keeps _ _ still) calm
    rw [idle.step]
    change m'.cpu.elapse 4 = _
    rw [ih, Cpu.elapse_elapse, Nat.mul_succ]
  | other _ _ same ih => exact same.trans ih

theorem Serves.awake (serves : m.Serves) : m.step.2.cpu.halted = false := by
  obtain ⟨i, -, -, stepped, -⟩ := serves
  rw [stepped]
  rfl

/-- A halt that ends without an interrupt changes nothing else of the processor. -/
theorem Resumes.cpu (resumes : m.Resumes) : m.step.2.cpu = m.awakened.cpu := by
  rw [resumes.step]
  rfl

/-- A machine idles whose processor only lets four cycles pass. -/
theorem idles_of_core (outcome : m.core.step = (.ok 4, m.core.elapse 4)) : m.Idles := by
  have stepped : m.step = (.ok 4, follow 4 { m with cpu := m.cpu.elapse 4 }) := step_of_core outcome
  refine ⟨stepped, ?_⟩
  rw [stepped]
  exact follow_advanced 4 m _

section Halting

variable (halting : m.cpu.Halting)
include halting

/-- A halted machine idles while nothing is found. -/
theorem idles_of_quiet (quiet : m.core.found.isEmpty = true) : m.Idles :=
  idles_of_core (Core.step_of_quiet halting quiet)

/-- What is found is served if interrupts are enabled. -/
theorem serves_of_found (pending : m.core.found.isEmpty = false) (enabled : m.cpu.ime = true) :
    m.Serves := by
  obtain ⟨i, due, least, outcome⟩ := Core.step_of_due halting pending enabled
  have stepped := step_of_core outcome
  refine ⟨i, due, least, stepped, ?_⟩
  rw [stepped]
  exact follow_advanced 24 { m with bus := (m.core.entered i).bus } _

theorem resumes_of_found (fresh : m.bus.timer.interrupt = false)
    (pending : m.core.found.isEmpty = false) (disabled : m.cpu.ime = false) : m.Resumes := by
  have stepped : m.step = (.ok 4, follow 4 m.awakened) :=
    step_of_core (Core.step_of_masked halting pending disabled)
  have after : m.step.2 = follow 4 m.awakened := congrArg Prod.snd stepped
  have requested := follow_requested (m := m.awakened) fresh 4
  refine ⟨stepped, ?_, fun i asked => ?_, ?_, ?_, ?_⟩
  · rw [after]
    exact follow_advanced 4 m _
  · have kept : m.awakened.bus.requested.has i = true := asked
    rw [after, requested, Interrupts.has_union, kept, Bool.true_or]
  all_goals rw [after]
  · exact halting.unlocked
  · have going : (follow 4 m.awakened).core.cpu.stopped = false := halting.going
    have running : (follow 4 m.awakened).core.cpu.halted = false := rfl
    simp only [Core.slot, going, running, Bool.false_eq_true, if_false]
  · exact halting.single

end Halting

theorem idles_of_untouched (stopping : m.cpu.Stopping) (untouched : m.bus.requested.has 4 = false) :
    m.Idles ∧ m.core.dispatched? = none := by
  obtain ⟨quiet, stepped⟩ := Core.step_of_untouched (s := m.core) stopping untouched
  exact ⟨idles_of_core stepped, quiet⟩

/-- The joypad ends a stop with the next step. -/
theorem goes_of_touched (stopping : m.cpu.Stopping) (touched : m.bus.requested.has 4 = true) :
    ∃ n, m.step.1 = .ok n ∧ m.step.2.cpu.stopped = false := by
  obtain ⟨n, outcome, going⟩ := Core.step_of_touched (s := m.core) stopping touched
  have stepped := step_of_core (Prod.ext outcome rfl : m.core.step = (.ok n, m.core.step.2))
  rw [← step_cpu] at going
  exact ⟨n, congrArg Prod.fst stepped, going⟩

/-- A halt keeps the processor as it is, four cycles a step by which everything else moves on, for
as long as no line is found to be both requested and enabled. The first step that finds one ends it.
With interrupts enabled the first line that is due is served; otherwise no request is taken back and
the program goes on where it was. A stop lasts in the same way until a step begins with the joypad
requested, whatever else is. -/
theorem Reach.waits (reach : Reach (boot revision cartridge) m) :
    (m.cpu.halted = true → m.cpu.stopped = false → ∀ k m',
      Waits (fun m => m.core.found.isEmpty = true) m k m' →
        m'.cpu = m.cpu.elapse (4 * k) ∧
        (m'.core.found.isEmpty = true → m'.Idles) ∧
        (m'.core.found.isEmpty = false → m'.step.2.cpu.halted = false ∧
          (m.cpu.ime = true → m'.Serves) ∧
          (m.cpu.ime = false → m'.Resumes ∧ m'.step.2.cpu.pc = m.cpu.pc))) ∧
    (m.cpu.stopped = true → ∀ k m',
      Waits (fun m => m.bus.requested.has 4 = false) m k m' →
        m'.cpu = m.cpu.elapse (4 * k) ∧
        (m'.bus.requested.has 4 = false → m'.Idles ∧ m'.core.dispatched? = none) ∧
        (m'.bus.requested.has 4 = true →
          ∃ n, m'.step.1 = .ok n ∧ m'.step.2.cpu.stopped = false)) := by
  constructor
  · intro halted going k m' waits
    have halting := reach.core.halting going halted
    have cpu := waits.cpu halting (fun _ n still => still.elapse n) fun _ => idles_of_quiet
    have ready : m'.cpu.Halting := cpu ▸ halting.elapse _
    have ime : m'.cpu.ime = m.cpu.ime := (congrArg Cpu.ime cpu).trans rfl
    have pc : m'.cpu.pc = m.cpu.pc := (congrArg Cpu.pc cpu).trans rfl
    rw [← ime, ← pc]
    refine ⟨cpu, idles_of_quiet ready, fun pending => ?_⟩
    cases enabled : m'.cpu.ime with
    | true =>
      have serves := serves_of_found ready pending enabled
      exact ⟨serves.awake, fun _ => serves, fun disabled => nomatch disabled⟩
    | false =>
      have fresh := (waits.reach reach).timer_interrupt
      have resumes := resumes_of_found ready fresh pending enabled
      have after := resumes.cpu
      exact ⟨(congrArg Cpu.halted after).trans rfl, fun enabled => (nomatch enabled),
        fun _ => ⟨resumes, (congrArg Cpu.pc after).trans rfl⟩⟩
  · intro stopped k m' waits
    have stopping := reach.core.stopping stopped
    have cpu := waits.cpu stopping (fun _ n still => still.elapse n)
      fun _ still untouched => (idles_of_untouched still untouched).1
    have ready : m'.cpu.Stopping := cpu ▸ stopping.elapse _
    exact ⟨cpu, idles_of_untouched ready, goes_of_touched ready⟩

/-- The machine after a program that begins with a halt has executed it. No interrupt is enabled. -/
def halted (c : Cartridge) : Machine := follow 4 { boot .standard (some c) with
  cpu := { Cpu.boot .standard with pc := 0x101, halted := true, cycles := 4 } }

theorem halted_reach : ∃ c, Reach (boot .standard (some c)) (halted c) := by
  obtain ⟨c, first⟩ := Core.exists_start 0x76
  have meaning : Instruction.decode (boot .standard (some c)).core.immediate = some .halt := by
    rw [show (boot .standard (some c)).core.immediate = 0x76 from first]
    rfl
  have nothing : (boot .standard (some c)).core.bus.pending.first? = none :=
    (by decide : (Interrupts.vblank.inter (.ofByte 0)).first? = none)
  have outcome : (boot .standard (some c)).core.slot = (.ok 4,
      { (boot .standard (some c)).core with
        cpu := { Cpu.boot .standard with pc := 0x101, halted := true } }) := by
    have quiet : ¬(!(boot .standard (some c)).core.fetched.cpu.ime &&
        !(boot .standard (some c)).core.fetched.bus.pending.isEmpty) = true :=
      (by decide : ¬(!false && !(Interrupts.vblank.inter (.ofByte 0)).isEmpty) = true)
    rw [Core.slot_of_decode rfl rfl meaning, Instruction.run, if_neg quiet]
    rfl
  have core := Core.step_of_none rfl outcome (Core.dispatched?_of_slot rfl outcome)
  rw [Core.woken_of_none (by exact nothing)] at core
  have stepped : (boot .standard (some c)).step = (.ok 4, halted c) := step_of_core core
  refine ⟨c, ?_⟩
  have reach : Reach (boot .standard (some c)) (boot .standard (some c)).step.2 := .step .start
  rwa [stepped] at reach

theorem halted_quiet (c : Cartridge) : (halted c).core.found.isEmpty = true :=
  Core.quiet_of_disabled ⟨rfl, rfl, rfl, rfl⟩ (follow_enabled 4 _)

/-- A request that finds its line enabled is found. -/
theorem found_of_due {i : Fin 5} (halting : m.cpu.Halting) (due : m.bus.Due i) :
    m.core.found.isEmpty = false := by
  rw [Core.found_of_halting halting]
  exact Interrupts.isEmpty_of_has (Bus.due_iff.mp due)

/-- Whatever a machine does, its vertical blank can become due. -/
theorem exists_due (m : Machine) : ∃ m', Reach m m' ∧ m'.cpu = m.cpu ∧ m'.bus.Due 0 := by
  have enabled := Reach.access (m := m) .start (.write .program 0xFFFF 1)
  have requested := enabled.access (.request (i := .vblank) (by simp))
  have cell : Cell.ofAddress 0xFFFF = .enables := by decide
  have one : (m.bus.writeBy .program 0xFFFF 1).enabled = 1 := by
    rw [Bus.writeBy, cell]
    rfl
  refine ⟨_, requested, rfl, ?_, ?_⟩
  · rw [Bus.request, Interrupts.has_union]
    exact Bool.or_true _
  · change (m.bus.writeBy .program 0xFFFF 1).enabled.toNat.testBit 0 = true
    rw [one]
    rfl

/-- The request of the joypad may be taken back between two steps. -/
theorem exists_untouched (m : Machine) :
    ∃ m', Reach m m' ∧ m'.cpu = m.cpu ∧ m'.bus.requested.has 4 = false := by
  refine ⟨_, .access .start (.dismiss .joypad), rfl, ?_⟩
  rw [Interrupts.has_diff]
  exact Bool.and_false _

theorem exists_touched (m : Machine) :
    ∃ m', Reach m m' ∧ m'.cpu = m.cpu ∧ m'.bus.requested.has 4 = true := by
  refine ⟨_, .access .start (.request (i := .joypad) (by simp)), rfl, ?_⟩
  rw [Bus.request, Interrupts.has_union]
  exact Bool.or_true _

/-- A halt lasts one more step and then ends with a vertical blank. A stop lasts one more step and
then ends with a button. -/
theorem waits_after_start :
    (∃ c m, Reach (boot .standard (some c)) (halted c) ∧
      Waits (fun m => m.core.found.isEmpty = true) (halted c) 1 m ∧
      m.core.found.isEmpty = false ∧ m.cpu = (halted c).cpu.elapse 4 ∧ m.Resumes ∧
      m.step.2.cpu.pc = 0x101) ∧
    ∃ c m m', Reach (boot .standard (some c)) m ∧ m.cpu.stopped = true ∧
      Waits (fun m => m.bus.requested.has 4 = false) m 1 m' ∧ m'.cpu = m.cpu.elapse 4 ∧
      m'.step.2.cpu.stopped = false := by
  constructor
  · obtain ⟨c, reach⟩ := halted_reach
    have halting : (halted c).cpu.Halting := ⟨rfl, rfl, rfl, rfl⟩
    obtain ⟨m, later, same, due⟩ := exists_due (halted c).step.2
    have waits : Waits (fun m => m.core.found.isEmpty = true) (halted c) 1 m :=
      .other (.step .start (halted_quiet c)) later same
    obtain ⟨cpu, -, found⟩ := reach.waits.1 rfl rfl 1 m waits
    have pending := found_of_due (cpu ▸ halting.elapse 4) due
    obtain ⟨-, -, resumes⟩ := found pending
    exact ⟨c, m, reach, waits, pending, cpu, resumes rfl⟩
  · obtain ⟨c, first⟩ := Core.exists_start 0x10
    have meaning : Instruction.decode (boot .standard (some c)).core.immediate = some .stop := by
      rw [show (boot .standard (some c)).core.immediate = 0x10 from first]
      rfl
    have outcome := Core.slot_of_decode rfl rfl meaning
    have core := Core.step_of_none rfl outcome (Core.dispatched?_of_slot rfl outcome)
    have stepped : (boot .standard (some c)).step = (.ok 4, _) := step_of_core core
    have reach : Reach (boot .standard (some c)) (boot .standard (some c)).step.2 := .step .start
    have stopped : (boot .standard (some c)).step.2.cpu.stopped = true := by rw [stepped]; rfl
    obtain ⟨m, aside, same, quiet⟩ := exists_untouched (boot .standard (some c)).step.2
    obtain ⟨m', later, same', touched⟩ := exists_touched m.step.2
    have waits : Waits (fun m => m.bus.requested.has 4 = false) m 1 m' :=
      .other (.step .start quiet) later same'
    have halt : m.cpu.stopped = true := same ▸ stopped
    obtain ⟨cpu, -, goes⟩ := (reach.trans aside).waits.2 halt 1 m' waits
    obtain ⟨n, -, going⟩ := goes touched
    exact ⟨c, m, m', reach.trans aside, halt, waits, cpu, going⟩

end DotMatrix.Machine
