import DotMatrix.Proofs.Joypad
import DotMatrix.Proofs.Machine.Reach
import DotMatrix.Proofs.Serial
import DotMatrix.Proofs.Timer

namespace DotMatrix

/-- Nothing that happens to the bus requests a line that does not exist. -/
theorem Bus.Access.known {s t : Bus} (access : s.Access t) (before : s.requested.Known) :
    t.requested.Known := by
  cases access with
  | write w a v =>
    rw [writeBy_requested]
    split
    · exact Interrupts.known_ofByte v
    · exact before
  | store => exact before
  | request named => exact before.union (Interrupts.known_of_mem named)
  | dismiss i => exact before.diff i
  | time n =>
    unfold stepTimer
    rw [requested_ite]
    exact before.union ((Interrupts.known_of_mem (by simp)).when _)

namespace Core

theorem unlocked_of_ok {s : Core} {n : Nat} (outcome : s.step.1 = .ok n) : s.cpu.fault = none := by
  cases locked : s.cpu.fault with
  | none => rfl
  | some e => simp [step, locked] at outcome

theorem dispatched?_of_has {s : Core} {i : Fin 8}
    (served : (s.dispatched?.getD .empty).has i = true) : s.dispatched? = some (.line i) := by
  cases choice : s.dispatched? with
  | none => simp [choice] at served
  | some t =>
    rw [choice, Option.getD_some] at served
    unfold dispatched? at choice
    split at choice
    · split at choice
      · cases choice
      · obtain ⟨j, _, rfl⟩ := Interrupts.first?_eq_some choice
        rw [Interrupts.has_line, decide_eq_true_iff] at served
        rw [Fin.ext served]
    · cases choice

/-- Only the request that a step serves is taken back. -/
theorem step_requested {s : Core} (unlocked : s.cpu.fault = none)
    (elsewhere : ∀ w ∈ s.writes, w.1 ≠ 0xFF0F) :
    s.step.2.bus.requested = s.bus.requested.diff (s.dispatched?.getD .empty) := by
  rw [step_bus s unlocked]
  split
  · rename_i quiet
    rw [Bus.writeAll_requested elsewhere, quiet, Option.getD_none, Interrupts.diff_empty]
  · rename_i i served
    have written : s.writes = s.slotWrites ++ s.slot.2.pushed s.slot.2.cpu.pc := by
      simp only [writes, unlocked, served, Option.isSome_some, if_true]
    rw [written] at elsewhere
    rw [served, Option.getD_some, Bus.writeAll_requested, Bus.writeAll_requested]
    · exact fun w member => elsewhere w (List.mem_append_left _ member)
    · exact fun w member => elsewhere w (List.mem_append_right _ member)

end Core

namespace Machine

/-- The processor of a machine with its bus. -/
def core (m : Machine) : Core := ⟨m.cpu, m.bus⟩

/-- What the other parts request while they follow for `n` cycles. -/
def requests (n : Nat) (m : Machine) : Interrupts :=
  let shown := m.lcd.step n m.bus
  let timed := shown.bus.stepTimer n
  let sent := (m.serial.step n timed).2
  (Panel.stepRequests n ⟨m.lcd, m.bus, false⟩).union
    ((Interrupts.timer.when (shown.bus.timer.rings n)).union
      ((Interrupts.serial.when (m.serial.finishes n timed)).union
        (Interrupts.joypad.when (m.joypad.falls sent))))

/-- Everything that follows the processor adds requests and takes none back. -/
theorem follow_requested {m : Machine} (fresh : m.bus.timer.interrupt = false) (n : Nat) :
    (m.follow n).bus.requested = m.bus.requested.union (m.requests n) := by
  have kept : (m.lcd.step n m.bus).bus.timer.interrupt = false :=
    (Panel.step_leads n ⟨m.lcd, m.bus, false⟩).keeps (fun access => access.timer_interrupt) fresh
  have shown := Panel.step_requested n ⟨m.lcd, m.bus, false⟩
  unfold follow requests
  dsimp only
  rw [Joypad.update_requested, Serial.step_requested, Bus.stepTimer_requested kept]
  unfold Lcd.step
  rw [shown]
  simp only [Interrupts.union_assoc]

/-- A step of the machine is one of its processor, and then the rest follows. -/
theorem step_of_core {m : Machine} {n : Nat} {s : Core} (outcome : m.core.step = (.ok n, s)) :
    m.step = (.ok n, follow n { m with cpu := s.cpu, bus := s.bus }) := by
  unfold core at outcome
  simp only [step, outcome]

/-- A machine's step that succeeds is one of its processor that does. -/
theorem core_of_step {m m' : Machine} {n : Nat} (stepped : m.step = (.ok n, m')) :
    m.core.step.1 = .ok n ∧
      m' = follow n { m with cpu := m.core.step.2.cpu, bus := m.core.step.2.bus } := by
  unfold step at stepped
  split at stepped
  · cases stepped
  · rename_i outcome
    cases stepped
    rw [core, outcome]
    exact ⟨rfl, rfl⟩

/-- A reachable machine requests none but the five lines. -/
theorem Reach.known {revision : Revision} {cartridge : Option Cartridge} {m : Machine}
    (reach : Reach (boot revision cartridge) m) : m.bus.requested.Known :=
  reach.keeps (Interrupts.known_ofByte 1) (fun access before => access.known before)
    (fun _ _ => Interrupts.known_ofByte 1) fun before => before

/-- Between steps the timer of a reachable machine holds nothing back. -/
theorem Reach.timer_interrupt {revision : Revision} {cartridge : Option Cartridge} {m : Machine}
    (reach : Reach (boot revision cartridge) m) : m.bus.timer.interrupt = false :=
  reach.keeps (P := fun s => s.timer.interrupt = false) rfl
    (fun access before => access.timer_interrupt before) (fun _ _ => rfl) fun before => before

/-- No request is lost. While the program leaves the register of the requests alone, a step takes
back the one that it serves, whose handler it enters, and adds all that the LCD, the timer, the
serial unit and the joypad request. A line that does not exist is never requested. -/
theorem Reach.requests_kept {revision : Revision} {cartridge : Option Cartridge} {m : Machine}
    (reach : Reach (boot revision cartridge) m) :
    m.bus.requested.Known ∧
    ∀ n m', m.step = (.ok n, m') → (∀ w ∈ m.core.writes, w.1 ≠ 0xFF0F) →
      let after := { m with cpu := m.core.step.2.cpu, bus := m.core.step.2.bus }
      m'.bus.requested =
        (m.bus.requested.diff (m.core.dispatched?.getD .empty)).union (after.requests n) ∧
      (∀ i, (after.requests n).has i = true → m'.bus.requested.has i = true) ∧
      (∀ i : Fin 8, m.bus.requested.has i = true → m'.bus.requested.has i = false →
        m.core.dispatched? = some (.line i) ∧ m.core.Enters (.line i) ∧
          m'.cpu.pc = (Interrupts.line i).handler) ∧
      (∀ i j : Fin 8, m.bus.requested.has i = true → m'.bus.requested.has i = false →
        m.bus.requested.has j = true → m'.bus.requested.has j = false → i = j) := by
  refine ⟨reach.known, fun n m' stepped elsewhere => ?_⟩
  intro after
  obtain ⟨outcome, rfl⟩ := core_of_step stepped
  -- The timer never keeps an interrupt between steps, so what it passes on belongs to this one.
  have fresh : after.bus.timer.interrupt = false :=
    m.core.step_leads.keeps (fun access before => access.timer_interrupt before) reach.timer_interrupt
  have served : after.bus.requested = m.bus.requested.diff (m.core.dispatched?.getD .empty) :=
    Core.step_requested (Core.unlocked_of_ok outcome) elsewhere
  have requested := follow_requested fresh n
  rw [served] at requested
  have lost (i : Fin 8) (before : m.bus.requested.has i = true)
      (gone : (follow n after).bus.requested.has i = false) :
      m.core.dispatched? = some (.line i) := by
    apply Core.dispatched?_of_has
    rw [requested, Interrupts.has_union, Interrupts.has_diff, before] at gone
    simpa using (Bool.or_eq_false_iff.mp gone).1
  refine ⟨requested, fun i asked => ?_, fun i before gone => ?_,
    fun i j before gone before' gone' => ?_⟩
  · rw [requested, Interrupts.has_union, asked, Bool.or_true]
  · have enters := Core.enters_of_dispatched (lost i before gone)
    exact ⟨lost i before gone, enters, enters.pc⟩
  · have first := lost i before gone
    have second := lost j before' gone'
    exact Interrupts.line_injective (Option.some.inj (first.symm.trans second))

/-- Without a cartridge the first instruction is a restart. The vertical blank stays requested. -/
theorem requests_kept_at_first : ∃ m', (boot .standard none).step = (.ok 16, m') ∧
    m'.bus.requested.has 0 = true := by
  have meaning : Instruction.decode (boot .standard none).core.immediate = some (.restart 0x38) :=
    rfl
  have outcome := Core.slot_of_decode rfl rfl meaning
  have quiet : (boot .standard none).core.dispatched? = none := Core.dispatched?_of_slot rfl outcome
  have core := Core.step_of_none rfl outcome quiet
  have pushed : (boot .standard none).core.writes = [(0xFFFD, 0x01), (0xFFFC, 0x01)] := by
    have unlocked : (boot .standard none).core.cpu.fault = none := rfl
    rw [Core.writes, unlocked, quiet]
    rfl
  have stepped : (boot .standard none).step = (.ok 16, _) := step_of_core core
  obtain ⟨-, kept⟩ := Reach.requests_kept (m := boot .standard none) .start
  obtain ⟨-, -, lost, -⟩ := kept 16 _ stepped (by simp [pushed])
  refine ⟨_, stepped, Bool.of_not_eq_false fun gone => ?_⟩
  exact absurd (quiet.symm.trans (lost 0 (by decide) gone).1) (by simp)

end Machine

end DotMatrix
