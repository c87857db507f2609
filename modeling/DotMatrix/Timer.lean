import DotMatrix.Revision
import DotMatrix.Word

namespace DotMatrix

/-- The divider counts every cycle, the counter every falling edge of one divider bit. -/
structure Timer where
  divider : UInt16
  counter : UInt8
  modulo : UInt8
  control : UInt8
  /-- The watched signal as it was last seen. -/
  signal : Bool
  /-- A write took the signal down. The edge is counted at the next tick. -/
  owed : Bool
  /-- Ticks until a counter that ran over takes the modulo. -/
  countdown : Nat
  /-- The last tick made the counter take the modulo. -/
  reloaded : Bool
  interrupt : Bool
  deriving DecidableEq

namespace Timer

/-- The four bytes that a program sees, in the order of their addresses from 0xFF04 on. -/
inductive Register
  | divider | counter | modulo | control
  deriving DecidableEq

/-- The register at an address. -/
def Register.at? (a : UInt16) : Option Register :=
  if a = 0xFF04 then some .divider
  else if a = 0xFF05 then some .counter
  else if a = 0xFF06 then some .modulo
  else if a = 0xFF07 then some .control
  else none

/-- The divider bit that the two low control bits select. -/
def watchedBit (control : UInt8) : Nat :=
  match control.toNat % 4 with
  | 0 => 9
  | 1 => 3
  | 2 => 5
  | _ => 7

/-- The watched divider bit while bit 2 of the control enables counting, else low. -/
def level (divider : UInt16) (control : UInt8) : Bool :=
  control.toNat.testBit 2 && divider.toNat.testBit (watchedBit control)

/-- Everything zero. -/
def stopped : Timer := ⟨0, 0, 0, 0, false, false, 0, false, false⟩

/-- The timer when the first cartridge instruction is fetched. -/
def boot (revision : Revision) : Timer := { stopped with divider := revision.bootDivider }

/-- Whether an overflow waits for its reload. -/
def overflowed (t : Timer) : Bool := t.countdown != 0

def read (t : Timer) : Register → UInt8
  | .divider => high t.divider
  | .counter => t.counter
  | .modulo => t.modulo
  | .control => t.control ||| 0xF8

/-- Clears the divider. The signal falls with it. -/
def clearDivider (t : Timer) : Timer :=
  { t with divider := 0, signal := false, owed := t.owed || level t.divider t.control }

/-- A write to the counter calls off a reload that waits and loses against one that has just
landed; a write to the modulo reaches a counter that has just been reloaded. -/
def write (t : Timer) (r : Register) (v : UInt8) : Timer :=
  match r with
  | .divider => t.clearDivider
  | .counter => if t.reloaded then t else { t with counter := v, countdown := 0 }
  | .modulo => { t with modulo := v, counter := if t.reloaded then v else t.counter }
  | .control =>
    let control := v &&& 0x07
    let signal := level t.divider control
    { t with control, signal, owed := t.owed || (level t.divider t.control && !signal) }

/-- Counts one edge. -/
def count (t : Timer) : Timer :=
  if t.counter = 0xFF then { t with counter := 0, countdown := 4 }
  else { t with counter := t.counter + 1 }

/-- The first part of a tick: an overflow that is due makes the counter take the modulo. -/
def reload (t : Timer) : Timer :=
  if t.countdown = 1 then
    { t with counter := t.modulo, countdown := 0, reloaded := true, interrupt := true }
  else { t with countdown := t.countdown - 1, reloaded := false }

/-- The second part: an edge left by a write is counted. -/
def payOwed (t : Timer) : Timer :=
  if t.owed then count { t with owed := false } else t

/-- The last part: the divider moves on. -/
def advance (t : Timer) : Timer :=
  let divider := t.divider + 1
  let signal := level divider t.control
  let fell := t.signal && !signal
  let t := { t with divider, signal }
  if fell then t.count else t

def tick (t : Timer) : Timer := t.reload.payOwed.advance

def step : Nat → Timer → Timer
  | 0, t => t
  | n + 1, t => step n t.tick

/-- A byte read by address; nothing else answers there. -/
def readAt (t : Timer) (a : UInt16) : UInt8 :=
  match Register.at? a with
  | some r => t.read r
  | none => 0xFF

def writeAt (t : Timer) (a : UInt16) (v : UInt8) : Timer :=
  match Register.at? a with
  | some r => t.write r v
  | none => t

theorem step_add (m n : Nat) (t : Timer) : step (m + n) t = step n (step m t) := by
  induction m generalizing t with
  | zero => rw [Nat.zero_add, step]
  | succ m ih => rw [Nat.succ_add, step, step, ih]

theorem reload_divider (t : Timer) : t.reload.divider = t.divider := by
  unfold reload; split <;> rfl

theorem reload_control (t : Timer) : t.reload.control = t.control := by
  unfold reload; split <;> rfl

theorem count_divider (t : Timer) : t.count.divider = t.divider := by
  unfold count; split <;> rfl

theorem count_control (t : Timer) : t.count.control = t.control := by
  unfold count; split <;> rfl

theorem count_signal (t : Timer) : t.count.signal = t.signal := by
  unfold count; split <;> rfl

theorem payOwed_divider (t : Timer) : t.payOwed.divider = t.divider := by
  unfold payOwed; split <;> simp only [count_divider]

theorem payOwed_control (t : Timer) : t.payOwed.control = t.control := by
  unfold payOwed; split <;> simp only [count_control]

theorem advance_divider (t : Timer) : t.advance.divider = t.divider + 1 := by
  unfold advance; dsimp only; split <;> simp only [count_divider]

theorem advance_control (t : Timer) : t.advance.control = t.control := by
  unfold advance; dsimp only; split <;> simp only [count_control]

theorem advance_signal (t : Timer) : t.advance.signal = level (t.divider + 1) t.control := by
  unfold advance; dsimp only; split <;> simp only [count_signal]

theorem tick_divider (t : Timer) : t.tick.divider = t.divider + 1 := by
  rw [tick, advance_divider, payOwed_divider, reload_divider]

theorem tick_control (t : Timer) : t.tick.control = t.control := by
  rw [tick, advance_control, payOwed_control, reload_control]

/-- A tick brings what is remembered of the signal up to date, whatever it was. -/
theorem tick_signal (t : Timer) : t.tick.signal = level t.tick.divider t.tick.control := by
  rw [tick_divider, tick_control, tick, advance_signal, payOwed_divider, payOwed_control,
    reload_divider, reload_control]

example : (step 16 (stopped.write .control 5)).counter = 1 := by decide +kernel
example : (step 15 (stopped.write .control 5)).counter = 0 := by decide +kernel

end Timer

end DotMatrix
