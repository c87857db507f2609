import DotMatrix.Proofs.Checked.Cpu
import DotMatrix.Proofs.Checked.Lcd
import DotMatrix.Proofs.Cpu.Faults
import DotMatrix.Proofs.Machine.FrameRun

namespace DotMatrix

open Checked

/-- A transfer counts down until its last cycle. -/
def Serial.checkedStep (n : Nat) (s : Serial) (bus : Bus) : Checked (Serial × Bus) := do
  let control := bus.registers.visible .sc
  if control &&& 0x81 = 0x81 then
    let left := s.left.getD byteCycles
    if n < left then return ({ s with left := some (← minus left n) }, bus)
    else
      let byte := bus.registers.visible .sb
      let bus := (bus.store .sb 0xFF).store .sc (control &&& 0x7F)
      return ({ sent := s.sent.push byte, left := none }, bus.request .serial)
  else return ({ s with left := none }, bus)

theorem Serial.checkedStep_eq (n : Nat) (s : Serial) (bus : Bus) :
    s.checkedStep n bus = .ok (s.step n bus) := by
  unfold checkedStep step
  dsimp only
  split_ifs with running short
  · rw [minus_ok short.le]
    rfl
  · rfl
  · rfl

namespace Machine

/-- The hardware catches up with the processor. -/
def checkedFollow (n : Nat) (m : Machine) : Checked Machine := do
  let shown ← m.lcd.checkedStep n m.bus
  let display := if shown.finished then m.display.map (·.push shown.lcd.front) else m.display
  let sent ← m.serial.checkedStep n (← shown.bus.checkedStepTimer n)
  let held := m.joypad.update sent.2
  return { m with lcd := shown.lcd, serial := sent.1, joypad := held.1, bus := held.2, display }

/-- A step of the processor, followed by the rest of the machine. -/
def checkedStep (m : Machine) : Checked (Except Fault Nat × Machine) := do
  match ← m.core.checkedStep with
  | (.error fault, ⟨cpu, bus⟩) => return (.error fault, { m with cpu, bus })
  | (.ok n, ⟨cpu, bus⟩) => return (.ok n, ← checkedFollow n { m with cpu, bus })

/-- The cycles of the wait for a frame are counted in 32 bits. -/
def checkedUntilFrame (start : Nat) : Nat → Nat → Machine → Checked (Except Fault Unit × Machine)
  | 0, _, _ => .error .endless
  | fuel + 1, elapsed, m => do
    if m.lcd.frames = start then
      match ← m.checkedStep with
      | (.error fault, m) => return (.error fault, m)
      | (.ok n, m) =>
        let elapsed ← plus 32 elapsed n
        if !m.lcd.on && frameCycles ≤ elapsed then return (.ok (), m)
        else checkedUntilFrame start fuel elapsed m
    else return (.ok (), m)

/-- The run to the next frame, within steps that are enough for it. -/
def checkedRunToFrame (m : Machine) : Checked (Except Fault Unit × Machine) :=
  checkedUntilFrame m.lcd.frames (2 * (frameCycles + 44) / 4) 0 m

variable {m : Machine} {n : Nat} {c : Cartridge} {revision : Revision}

/-- The hardware catches up without a crash, wherever the LCD is in its place. -/
theorem checkedFollow_eq (placed : m.lcd.Placed) : m.checkedFollow n = .ok (m.follow n) := by
  rw [checkedFollow, placed.checkedStep, ok_bind]
  dsimp only
  rw [Bus.checkedStepTimer_eq, ok_bind, Serial.checkedStep_eq]
  rfl

/-- A step crashes nowhere while the clock has room. -/
theorem checkedStep_eq (sized : m.bus.Sized) (placed : m.lcd.Placed)
    (timely : m.step.2.cpu.cycles < 2 ^ 64) : m.checkedStep = .ok m.step := by
  rw [checkedStep, Core.checkedStep_eq sized (m.step_cpu ▸ timely), ok_bind]
  rcases outcome : m.core.step with ⟨fault | n, s⟩
  · rw [step_of_error outcome]
    rfl
  · have followed : checkedFollow n { m with cpu := s.cpu, bus := s.bus } =
        .ok (follow n { m with cpu := s.cpu, bus := s.bus }) := checkedFollow_eq placed
    rw [step_of_core outcome]
    dsimp only
    rw [followed]
    rfl

end Machine

/-- However its bus has been used, an LCD since power-on is in place. -/
theorem Lcd.Reach.placed {lcd : Lcd} {bus : Bus} (reach : lcd.Reach bus) : lcd.Placed := by
  induction reach with
  | start => exact .initial
  | dots n _ ih => exact ih.step n _
  | other _ _ ih => exact ih

namespace Machine

variable {m m' : Machine} {e e' : Nat} {c : Cartridge} {revision : Revision}

theorem Reach.sized (reach : Reach (boot revision (some c)) m) (sized : c.Sized) : m.bus.Sized := by
  have whole : (boot revision (some c)).bus.Sized := fun d inserted => by
    cases inserted
    exact sized
  exact reach.keeps whole (fun access before => access.sized before) (fun _ before => before)
    fun before => before

theorem Reach.placed {cartridge : Option Cartridge} (reach : Reach (boot revision cartridge) m) :
    m.lcd.Placed := by
  obtain ⟨bus, reach⟩ := reach.lcd
  exact reach.placed

/-- A reachable machine is locked, if at all, by an opcode that means nothing. -/
theorem Reach.meaningless {cartridge : Option Cartridge} (reach : Reach (boot revision cartridge) m) :
    m.cpu.Meaningless := by
  induction reach with
  | start => exact .boot revision
  | @step m _ ih =>
    have after : m.core.step.2.cpu.Meaningless := m.core.step_meaningless ih
    rcases outcome : m.core.step with ⟨fault | n, s⟩
    · rw [step_of_error outcome]
      rwa [outcome] at after
    · rw [step_of_core outcome]
      rwa [outcome] at after
  | reset => exact .boot _
  | _ => assumption

theorem Reach.checkedStep (reach : Reach (boot revision (some c)) m) (sized : c.Sized)
    (timely : m.step.2.cpu.cycles < 2 ^ 64) : m.checkedStep = .ok m.step :=
  checkedStep_eq (reach.sized sized) reach.placed timely

theorem Reach.after {first : Machine} {outcome : Except Fault Nat} (reach : Reach first m)
    (stepped : m.step = (outcome, m')) : Reach first m' := by
  have next := reach.step
  rwa [stepped] at next

/-- Each machine of a run to a frame is reachable. -/
theorem FrameRun.reach {start : Nat} {result : Except Fault Unit} {first : Machine}
    (run : FrameRun start e m result e' m') (reach : Reach first m) : Reach first m' := by
  induction run with
  | done => exact reach
  | failed _ stepped | dark _ stepped => exact reach.after stepped
  | next _ stepped _ _ _ ih => exact ih (reach.after stepped)

/-- Every step of the wait for a frame, and the count of its cycles. -/
theorem FrameRun.checked {start fuel : Nat} {result : Except Fault Unit}
    (run : FrameRun start e m result e' m') (reach : Reach (boot revision (some c)) m)
    (sized : c.Sized) (timely : m'.cpu.cycles < 2 ^ 64) (enough : e' < e + 4 * fuel) :
    checkedUntilFrame start fuel e m = .ok (result, m') := by
  have later := run.elapsed
  obtain ⟨fuel, rfl⟩ : ∃ k, fuel = k + 1 := ⟨fuel - 1, by omega⟩
  induction run generalizing fuel with
  | done missed => rw [checkedUntilFrame, if_neg missed, pure_eq]
  | failed missing stepped =>
    have first := reach.checkedStep sized (by rwa [stepped])
    rw [checkedUntilFrame, if_pos missing, first, ok_bind, stepped]
    rfl
  | dark missing stepped fits off long =>
    have first := reach.checkedStep sized (by rwa [stepped])
    rw [checkedUntilFrame, if_pos missing, first, ok_bind, stepped]
    dsimp only
    rw [plus_ok fits, ok_bind, off, Bool.not_false, Bool.true_and, if_pos (decide_eq_true long),
      pure_eq]
  | @next e n e' m m' m'' result missing stepped fits going run ih =>
    obtain ⟨clock, -, lower, -⟩ := step_cycles stepped
    have rest := run.cycles
    have more := run.elapsed
    have first := reach.checkedStep sized (by rw [stepped]; dsimp only; omega)
    have go : ¬(!m'.lcd.on && decide (frameCycles ≤ e + n)) = true := by
      rw [Bool.and_eq_true, Bool.not_eq_true', decide_eq_true_iff]
      exact going
    rw [checkedUntilFrame, if_pos missing, first, ok_bind, stepped]
    dsimp only
    rw [plus_ok fits, ok_bind, if_neg go]
    obtain ⟨fuel, rfl⟩ : ∃ k, fuel = k + 1 := ⟨fuel - 1, by omega⟩
    exact ih (reach.after stepped) timely more fuel (by omega)

/-- A run to a frame crashes nowhere while the clock has room. Every step on the way is one of a
reachable machine. -/
theorem Reach.checkedRunToFrame (reach : Reach (boot revision (some c)) m) (sized : c.Sized)
    (timely : m.runToFrame.2.cpu.cycles < 2 ^ 64) : m.checkedRunToFrame = .ok m.runToFrame := by
  obtain ⟨e, run, soon, -⟩ := reach.runToFrame_run
  have rounds : 2 * (frameCycles + 44) = 4 * (2 * (frameCycles + 44) / 4) := by decide
  have enough : e < 0 + 4 * (2 * (frameCycles + 44) / 4) := by
    rwa [Nat.zero_add, ← rounds]
  unfold Machine.checkedRunToFrame
  generalize m.runToFrame = ended at run timely ⊢
  exact run.checked reach sized timely enough

/-- What a player and the program around the machine can do to it. -/
inductive Call
  | step
  | runFrame
  | reset
  | press (buttons : UInt8)
  | release (buttons : UInt8)
  deriving DecidableEq

/-- What went wrong, if anything did. -/
def failure {α : Type} : Except Fault α → Option Fault
  | .error fault => some fault
  | .ok _ => none

/-- What a call fails with, if it does, and the machine after it. -/
def call (m : Machine) : Call → Option Fault × Machine
  | .step => (failure m.step.1, m.step.2)
  | .runFrame => (failure m.runToFrame.1, m.runToFrame.2)
  | .reset => (none, m.reset)
  | .press buttons => (none, { m with joypad := m.joypad.press buttons })
  | .release buttons => (none, { m with joypad := m.joypad.release buttons })

/-- The failures of some calls, and the machine after them. -/
def calls : List Call → Machine → List Fault × Machine
  | [], m => ([], m)
  | c :: rest, m =>
    let first := m.call c
    let later := calls rest first.2
    (first.1.toList ++ later.1, later.2)

/-- A call, with the step and the run checked. -/
def checkedCall (m : Machine) : Call → Checked (Option Fault × Machine)
  | .step => do
    let stepped ← m.checkedStep
    return (failure stepped.1, stepped.2)
  | .runFrame => do
    let run ← m.checkedRunToFrame
    return (failure run.1, run.2)
  | c => return m.call c

/-- Some calls, one after another. -/
def checkedCalls : List Call → Machine → Checked (List Fault × Machine)
  | [], m => return ([], m)
  | c :: rest, m => do
    let first ← m.checkedCall c
    let later ← checkedCalls rest first.2
    return (first.1.toList ++ later.1, later.2)

/-- The clock fits into 64 bits after each of some calls. -/
def Timely : List Call → Machine → Prop
  | [], _ => True
  | c :: rest, m => (m.call c).2.cpu.cycles < 2 ^ 64 ∧ Timely rest (m.call c).2

theorem failure_eq_some {α : Type} {result : Except Fault α} {fault : Fault} :
    failure result = some fault ↔ result = .error fault := by
  cases result <;> simp [failure]

/-- Every call leads from a reachable machine to a reachable one. -/
theorem Reach.call {cartridge : Option Cartridge} (reach : Reach (boot revision cartridge) m)
    (c : Call) : Reach (boot revision cartridge) (m.call c).2 := by
  cases c with
  | step => exact reach.step
  | runFrame =>
    obtain ⟨_, run, -⟩ := reach.runToFrame_run
    exact run.reach reach
  | reset => exact reach.reset
  | press buttons => exact reach.press buttons
  | release buttons => exact reach.release buttons

/-- A call that fails has met an opcode that means nothing, now or before. -/
theorem Reach.call_failed {cartridge : Option Cartridge} {c : Call} {fault : Fault}
    (reach : Reach (boot revision cartridge) m) (failed : (m.call c).1 = some fault) :
    Instruction.decode fault.opcode = none := by
  refine (reach.call c).meaningless fault ?_
  cases c with
  | step => exact (step_fault (Prod.ext (failure_eq_some.mp failed) rfl)).1
  | runFrame =>
    obtain ⟨_, run, -⟩ := reach.runToFrame_run
    exact run.outcome.2 fault (failure_eq_some.mp failed)
  | reset | press | release => cases failed

/-- No call crashes while the clock has room. -/
theorem Reach.checkedCall (reach : Reach (boot revision (some c)) m) (sized : c.Sized) {k : Call}
    (timely : (m.call k).2.cpu.cycles < 2 ^ 64) : m.checkedCall k = .ok (m.call k) := by
  cases k with
  | step => rw [Machine.checkedCall, reach.checkedStep sized timely]; rfl
  | runFrame => rw [Machine.checkedCall, reach.checkedRunToFrame sized timely]; rfl
  | _ => rfl

/-- By induction on the calls, none crashes and each failure is that of an opcode. -/
theorem Reach.checkedCalls (reach : Reach (boot revision (some c)) m) (sized : c.Sized)
    {ks : List Call} (timely : Timely ks m) :
    Machine.checkedCalls ks m = .ok (calls ks m) ∧ Reach (boot revision (some c)) (calls ks m).2 ∧
      ∀ fault ∈ (calls ks m).1, Instruction.decode fault.opcode = none := by
  induction ks generalizing m with
  | nil => exact ⟨rfl, reach, fun _ member => absurd member List.not_mem_nil⟩
  | cons k rest ih =>
    obtain ⟨soon, later⟩ := timely
    obtain ⟨checked, after, meaning⟩ := ih (reach.call k) later
    refine ⟨?_, after, fun fault member => ?_⟩
    · rw [Machine.checkedCalls, reach.checkedCall sized soon, ok_bind, checked]
      rfl
    · rcases List.mem_append.mp member with first | other
      · exact reach.call_failed (Option.mem_toList.mp first)
      · exact meaning fault other

theorem step_timely (early : m.cpu.cycles < 2 ^ 64 - 44) : m.step.2.cpu.cycles < 2 ^ 64 := by
  rcases stepped : m.step with ⟨fault | n, m'⟩
  · have same := (step_fault stepped).2.1
    dsimp only
    omega
  · obtain ⟨clock, -, -, few⟩ := step_cycles stepped
    dsimp only
    omega

/-- A machine with a cartridge from an image never crashes, whatever the image holds and whatever is
called: nothing is looked up outside its table, no difference falls below zero where it must not, and
no sum, product or shift leaves its bits, as long as the clock has room. All that can fail is the
processor, on an opcode that means nothing. -/
theorem calls_never_crash {image : Array UInt8} (accepted : Cartridge.ofImage image = .ok c)
    (revision : Revision) {ks : List Call} (timely : Timely ks (boot revision (some c))) :
    let ended := calls ks (boot revision (some c))
    checkedCalls ks (boot revision (some c)) = .ok ended ∧
      (∀ fault ∈ ended.1, Instruction.decode fault.opcode = none) ∧
      (ended.2.cpu.cycles < 2 ^ 64 - 44 → ended.2.checkedStep = .ok ended.2.step) := by
  have sized := (Cartridge.accepts_of_ofImage accepted).sized
  have booted : Reach (boot revision (some c)) (boot revision (some c)) := .start
  obtain ⟨checked, reach, meaning⟩ := booted.checkedCalls sized timely
  exact ⟨checked, meaning, fun early => reach.checkedStep sized (step_timely early)⟩

theorem step_of_locked {fault : Fault} (locked : m.cpu.fault = some fault) :
    m.step = (.error fault, m) := by
  have core : m.core.step = (.error fault, m.core) := Core.step_of_locked locked
  exact step_of_error core

/-- A program that begins with an opcode without a meaning. Every step fails on it. -/
theorem calls_never_crash_meaningless : ∃ c,
    Cartridge.ofImage (Array.ofFn fun i : Fin 0x8000 => if i.val = 0x100 then 0xD3 else 0) = .ok c ∧
    ∃ m, checkedCalls [.step, .press 0x80, .step] (boot .standard (some c)) =
      .ok ([⟨0xD3, 0x100⟩, ⟨0xD3, 0x100⟩], m) := by
  obtain ⟨c, accepted, reads⟩ :=
    Cartridge.exists_plain (fun n => if n = 0x100 then 0xD3 else 0) rfl rfl rfl
  have opcode : (boot .standard (some c)).core.immediate = 0xD3 := reads 0x100 (by decide)
  have meaning : Instruction.decode (boot .standard (some c)).core.immediate = none := by
    rw [opcode]
    rfl
  obtain ⟨m, first, locked, clock⟩ : ∃ m, (boot .standard (some c)).step =
      (.error ⟨0xD3, 0x100⟩, m) ∧ m.cpu.fault = some ⟨0xD3, 0x100⟩ ∧ m.cpu.cycles = 0 := by
    have stepped := step_of_error (Core.step_of_meaningless rfl rfl rfl meaning)
    rw [opcode] at stepped
    obtain ⟨locked, clock, -⟩ := step_fault stepped
    exact ⟨_, stepped, locked, clock⟩
  have second : step { m with joypad := m.joypad.press 0x80 } =
      (.error ⟨0xD3, 0x100⟩, { m with joypad := m.joypad.press 0x80 }) :=
    step_of_locked locked
  have ended : calls [.step, .press 0x80, .step] (boot .standard (some c)) =
      ([⟨0xD3, 0x100⟩, ⟨0xD3, 0x100⟩], { m with joypad := m.joypad.press 0x80 }) := by
    simp only [calls, call, first, second, failure, Option.toList_some, Option.toList_none,
      List.nil_append, List.append_nil, List.cons_append]
  have timely : Timely [.step, .press 0x80, .step] (boot .standard (some c)) := by
    simp only [Timely, call, first, second, clock, and_true]
    decide
  have safe := (calls_never_crash accepted .standard timely).1
  rw [ended] at safe
  exact ⟨c, accepted, _, safe⟩

end Machine

end DotMatrix
