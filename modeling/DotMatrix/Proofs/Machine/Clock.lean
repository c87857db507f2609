import DotMatrix.Proofs.Cpu.Cycles
import DotMatrix.Proofs.Lcd.Slicing
import DotMatrix.Proofs.Machine.Requests
import DotMatrix.Proofs.Timer.Divider

namespace DotMatrix

namespace Bus

theorem Undisturbed.withTimer {s t : Bus} (same : s.Undisturbed t) (timer : Timer) :
    { s with timer }.Undisturbed { t with timer } := by
  obtain ⟨_, _, rfl, kept⟩ := same
  exact ⟨_, _, rfl, kept⟩

/-- Running the timer changes nothing else, save that it asks for its interrupt. -/
theorem stepTimer_undisturbed (n : Nat) (s : Bus) :
    { s with timer := { s.timer.step n with interrupt := false } }.Undisturbed (s.stepTimer n) :=
  (Undisturbed.refl _).request_ite .timer _

end Bus

theorem Serial.step_undisturbed (n : Nat) (s : Serial) (bus : Bus) :
    bus.Undisturbed (s.step n bus).2 := by
  unfold step
  dsimp only
  split
  · split
    · exact .refl bus
    · exact (((Bus.Undisturbed.refl bus).store .sb (by decide) _).store .sc (by decide) _).request
        .serial
  · exact .refl bus

theorem Joypad.update_undisturbed (s : Joypad) (bus : Bus) : bus.Undisturbed (s.update bus).2 := by
  unfold update
  exact ((Bus.Undisturbed.refl bus).store .p1 (by decide) _).request_ite .joypad _

namespace Machine

/-- Of all that follows the processor, only the timer does more than ask for interrupts and show how
it stands. -/
theorem follow_undisturbed (n : Nat) (m : Machine) :
    { m.bus with timer := { m.bus.timer.step n with interrupt := false } }.Undisturbed
      (m.follow n).bus := by
  have shown : m.bus.Undisturbed (m.lcd.step n m.bus).bus :=
    Panel.step_undisturbed n ⟨m.lcd, m.bus, false⟩
  have timed := Bus.stepTimer_undisturbed n (m.lcd.step n m.bus).bus
  rw [shown.timer] at timed
  have sent := Serial.step_undisturbed n m.serial ((m.lcd.step n m.bus).bus.stepTimer n)
  exact (((shown.withTimer _).trans timed).trans sent).trans (Joypad.update_undisturbed _ _)

theorem follow_divider (n : Nat) (m : Machine) :
    (m.follow n).bus.timer.divider = m.bus.timer.divider + UInt16.ofNat n := by
  rw [(follow_undisturbed n m).timer]
  exact m.bus.timer.step_divider n

section Step

variable {m m' : Machine} {n : Nat} (stepped : m.step = (.ok n, m'))
include stepped

/-- The clock counts the cycles of a step. They are whole fours, and few. -/
theorem step_cycles : m'.cpu.cycles = m.cpu.cycles + n ∧ 4 ∣ n ∧ 4 ≤ n ∧ n ≤ 44 := by
  obtain ⟨outcome, rfl⟩ := core_of_step stepped
  exact Core.step_cycles outcome

/-- The divider is cleared by the program first, and then moves on by the whole step. -/
theorem step_divider : m'.bus.timer.divider =
    (if m.core.clearsDivider then 0 else m.bus.timer.divider) + UInt16.ofNat n := by
  obtain ⟨outcome, rfl⟩ := core_of_step stepped
  exact (follow_divider n _).trans
    (congrArg (· + UInt16.ofNat n) (Core.step_divider (Core.unlocked_of_ok outcome)))

/-- The LCD moves on by the cycles of the step, on the bus that the program has left. -/
theorem step_lcd : m'.lcd = (m.lcd.step n m.core.step.2.bus).lcd := by
  obtain ⟨-, rfl⟩ := core_of_step stepped
  rfl

end Step

/-- A machine in a run without an error, from power-on. The last step in which the program cleared
the divider began at the time `cleared`. At the end of the program's turn in every step since the
time `lit` the LCD was switched on. In between, whoever plays and watches does as they like. -/
inductive Clocked (revision : Revision) (cartridge : Option Cartridge) :
    Option Nat → Option Nat → Machine → Prop
  | boot : Clocked revision cartridge none none (boot revision cartridge)
  | step {cleared lit : Option Nat} {m m' : Machine} {n : Nat} :
      Clocked revision cartridge cleared lit m → m.step = (.ok n, m') →
      Clocked revision cartridge
        (if m.core.clearsDivider then some m.cpu.cycles else cleared)
        (if m.core.step.2.bus.lcdWanted then some (lit.getD m.cpu.cycles) else none) m'
  | other {cleared lit : Option Nat} {m : Machine} (joypad : Joypad) (serial : Serial)
      (display : Option (Array Frame)) : Clocked revision cartridge cleared lit m →
      Clocked revision cartridge cleared lit { m with joypad, serial, display }

variable {revision : Revision} {cartridge : Option Cartridge} {cleared lit : Option Nat}
  {m : Machine}

/-- What the divider holds if it has counted since the time `cleared`, or since power-on. -/
def counted (revision : Revision) (cleared : Option Nat) (cycles : Nat) : UInt16 :=
  match cleared with
  | none => revision.bootDivider + UInt16.ofNat cycles
  | some start => UInt16.ofNat (cycles - start)

/-- By induction on the run, the divider has counted the cycles since it was cleared. -/
theorem Clocked.divider (run : Clocked revision cartridge cleared lit m) :
    (∀ d, cleared = some d → d ≤ m.cpu.cycles) ∧
      m.bus.timer.divider = counted revision cleared m.cpu.cycles := by
  induction run with
  | boot =>
    refine ⟨fun d never => absurd never (Option.some_ne_none d).symm, ?_⟩
    have start : (Cpu.boot revision).cycles = 0 :=
      congrArg Control.cycles (Cpu.boot_control revision)
    change revision.bootDivider = revision.bootDivider + UInt16.ofNat (Cpu.boot revision).cycles
    rw [start]
    exact (UInt16.add_zero _).symm
  | @step cleared _ m m' n _ stepped ih =>
    obtain ⟨past, divider⟩ := ih
    have cycles := (step_cycles stepped).1
    rw [step_divider stepped, cycles, divider]
    cases m.core.clearsDivider with
    | true =>
      rw [if_pos rfl, if_pos rfl, counted, Nat.add_sub_cancel_left, UInt16.zero_add]
      refine ⟨fun d same => ?_, rfl⟩
      cases same
      exact Nat.le_add_right _ _
    | false =>
      rw [if_neg (by decide), if_neg (by decide)]
      refine ⟨fun d same => Nat.le_add_right_of_le (past d same), ?_⟩
      cases cleared with
      | none => rw [counted, counted, UInt16.ofNat_add, UInt16.add_assoc]
      | some d => rw [counted, counted, Nat.sub_add_comm (past d rfl), UInt16.ofNat_add]
  | other _ _ _ _ ih => exact ih

/-- The dots that the LCD has run since it was switched on are the cycles since then. -/
theorem Clocked.lit_lcd (run : Clocked revision cartridge cleared lit m) :
    (∃ bus, m.lcd.Reach bus) ∧ lit.isSome = m.lcd.on ∧
      ∀ l, lit = some l →
        ∃ base k bus, l + k = m.cpu.cycles ∧ 1 ≤ k ∧ Lcd.Lit base k m.lcd bus := by
  induction run with
  | boot =>
    exact ⟨⟨_, .start (.boot revision cartridge)⟩, rfl,
      fun l never => absurd never (Option.some_ne_none l).symm⟩
  | @step _ lit m m' n _ stepped ih =>
    obtain ⟨⟨bus, reach⟩, known, lighted⟩ := ih
    obtain ⟨cycles, -, lower, -⟩ := step_cycles stepped
    have before := reach.other m.core.step.2.bus
    have on := before.step_on (n := n) (by omega)
    rw [step_lcd stepped, on]
    refine ⟨⟨_, before.dots n⟩, ?_, fun l since => ?_⟩
    · cases m.core.step.2.bus.lcdWanted <;> rfl
    cases wanted : m.core.step.2.bus.lcdWanted with
    | false =>
      rw [wanted] at since
      cases since
    | true =>
      rw [wanted, if_pos rfl, Option.some.injEq] at since
      cases lit with
      | none =>
        -- The LCD was off, so this step has switched it on.
        have start : Lcd.Lit m.lcd.frames 0 m.lcd m.core.step.2.bus :=
          .on before known.symm rfl wanted
        refine ⟨_, 0 + n, _, ?_, by omega, start.dots n⟩
        rw [Option.getD_none] at since
        omega
      | some l' =>
        obtain ⟨base, k, bus', sum, positive, going⟩ := lighted l' rfl
        refine ⟨base, k + n, _, ?_, by omega, (going.other _ wanted).dots n⟩
        rw [Option.getD_some] at since
        omega
  | other _ _ _ _ ih => exact ih

/-- The processor, the timer and the LCD run on one clock. The divider counts the cycles since the
last step that cleared it began, or since power-on from what it was then. The LCD is on if the
program has it switched on, and its place in the frame counts the cycles since the step began that
switched it on. -/
theorem Clocked.one_clock (run : Clocked revision cartridge cleared lit m) :
    (cleared = none →
      m.bus.timer.divider.toNat = (revision.bootDivider.toNat + m.cpu.cycles) % 65536) ∧
    (∀ d, cleared = some d →
      d ≤ m.cpu.cycles ∧ m.bus.timer.divider.toNat = (m.cpu.cycles - d) % 65536) ∧
    lit.isSome = m.lcd.on ∧
    (∀ l, lit = some l → l ≤ m.cpu.cycles ∧
      m.lcd.line.val * 456 + m.lcd.mode.start + m.lcd.dot = (m.cpu.cycles - l) % 70224) := by
  obtain ⟨past, divider⟩ := run.divider
  obtain ⟨-, known, lighted⟩ := run.lit_lcd
  refine ⟨fun never => ?_, fun d last => ⟨past d last, ?_⟩, known, fun l since => ?_⟩
  · rw [divider, never, counted, UInt16.toNat_add, UInt16.toNat_ofNat']
    omega
  · rw [divider, last, counted, UInt16.toNat_ofNat']
  · obtain ⟨base, k, bus, sum, positive, lit⟩ := lighted l since
    have runs := lit.runs
    have position := runs.position
    rw [Panel.started_of_on (runs.on positive)] at position
    refine ⟨by omega, ?_⟩
    rw [show m.cpu.cycles - l = k by omega]
    exact position.place.symm

/-- A program that begins with a stop. The divider has counted from zero since then, and the LCD has
gone as far into its first line. -/
theorem one_clock_after_stop : ∃ c,
    Cartridge.ofImage (Array.ofFn fun i : Fin 0x8000 => if i.val = 0x100 then 0x10 else 0) = .ok c ∧
    ∃ m, (boot .standard (some c)).step = (.ok 4, m) ∧
      Clocked .standard (some c) (some 0) (some 0) m ∧ m.bus.timer.divider.toNat = 4 ∧
      m.lcd.on = true ∧ m.lcd.line.val * 456 + m.lcd.mode.start + m.lcd.dot = 4 := by
  obtain ⟨c, accepted, reads⟩ :=
    Cartridge.exists_plain (fun n => if n = 0x100 then 0x10 else 0) rfl rfl rfl
  have meaning : Instruction.decode (boot .standard (some c)).core.immediate = some .stop := by
    rw [show (boot .standard (some c)).core.immediate = c.read 0x100 from rfl,
      reads 0x100 (by decide)]
    rfl
  have executed : (boot .standard (some c)).core.executed? = some .stop := meaning
  have outcome := Core.slot_of_decode rfl rfl meaning
  have core := Core.step_of_none rfl outcome (Core.dispatched?_of_slot rfl outcome)
  have stepped : (boot .standard (some c)).step = (.ok 4, _) := step_of_core core
  have cleared : (boot .standard (some c)).core.clearsDivider = true := by
    rw [Core.clearsDivider, executed, beq_self_eq_true, Bool.true_or]
  have wanted : (boot .standard (some c)).core.step.2.bus.lcdWanted = true := by
    rw [core]
    change ((boot .standard (some c)).bus.write 0xFF04 0).lcdWanted = true
    rw [Bus.write, Bus.writeBy, Cell.ofAddress_eq_divider.mpr rfl]
    change (Registers.boot.stored .lcdc).toNat.testBit 7 = true
    decide
  have run := Clocked.boot.step stepped
  rw [cleared, wanted] at run
  obtain ⟨-, divider, on, dots⟩ := run.one_clock
  refine ⟨c, accepted, _, stepped, run, (divider 0 rfl).2, on.symm, (dots 0 rfl).2⟩

end Machine

end DotMatrix
