import DotMatrix.Proofs.Checked.Basic
import DotMatrix.Timer

namespace DotMatrix.Timer

open Checked

/-- The divider bits that the two low control bits select. -/
def selectable : Vector Nat 4 := #v[9, 3, 5, 7]

/-- The divider bit that the control selects, if the timer is enabled. -/
def checkedLevel (divider : UInt16) (control : UInt8) : Checked Bool := do
  if !control.toNat.testBit 2 then return false
  let selected ← place 4 (control.toNat % 4)
  return (← shiftRight 16 divider.toNat (selectable.get selected)) % 2 == 1

/-- Clearing the divider owes an edge if the bit was set. -/
def checkedClear (t : Timer) : Checked Timer := do
  return { t with divider := 0, signal := false, owed := t.owed || (← checkedLevel t.divider t.control) }

/-- A write to a register, with the edge that it may owe. -/
def checkedWrite (t : Timer) (r : Register) (v : UInt8) : Checked Timer :=
  match r with
  | .divider => t.checkedClear
  | .control => do
    let before ← checkedLevel t.divider t.control
    let signal ← checkedLevel t.divider (v &&& 0x07)
    return { t with control := v &&& 0x07, signal, owed := t.owed || (before && !signal) }
  | r => return t.write r v

/-- The countdown, and the reload at its end. -/
def checkedReload (t : Timer) : Checked Timer := do
  if t.countdown = 0 then return { t with reloaded := false }
  let left ← minus t.countdown 1
  if left = 0 then
    return { t with counter := t.modulo, countdown := 0, reloaded := true, interrupt := true }
  return { t with countdown := left, reloaded := false }

/-- The divider goes on, and the counter if the bit falls. -/
def checkedAdvance (t : Timer) : Checked Timer := do
  let divider := t.divider + 1
  let signal ← checkedLevel divider t.control
  let fell := t.signal && !signal
  let t := { t with divider, signal }
  return if fell then t.count else t

/-- One cycle of the timer. -/
def checkedTick (t : Timer) : Checked Timer := do (← t.checkedReload).payOwed.checkedAdvance

/-- Several cycles. -/
def checkedStep : Nat → Timer → Checked Timer
  | 0, t => return t
  | n + 1, t => do checkedStep n (← t.checkedTick)

variable (t : Timer)

theorem selectable_get (i : Fin 4) :
    selectable.get i = match i.val with
      | 0 => 9
      | 1 => 3
      | 2 => 5
      | _ => 7 := by
  revert i
  decide

/-- Whatever the control, it selects one of the divider's sixteen bits. -/
theorem checkedLevel_eq (divider : UInt16) (control : UInt8) :
    checkedLevel divider control = .ok (level divider control) := by
  unfold checkedLevel level
  cases control.toNat.testBit 2 with
  | false => rfl
  | true =>
    have below : control.toNat % 4 < 4 := Nat.mod_lt _ (by decide)
    have watched : selectable.get ⟨control.toNat % 4, below⟩ = watchedBit control :=
      selectable_get _
    have bits : watchedBit control < 16 := by
      unfold watchedBit
      split <;> decide
    rw [place_ok below, ok_bind, watched, shiftRight_ok bits, ok_bind,
      Nat.testBit_eq_decide_div_mod_eq, Nat.shiftRight_eq_div_pow]
    rfl

theorem checkedWrite_eq (r : Register) (v : UInt8) : t.checkedWrite r v = .ok (t.write r v) := by
  cases r with
  | divider => rw [checkedWrite, checkedClear, checkedLevel_eq]; rfl
  | control => simp only [checkedWrite, checkedLevel_eq]; rfl
  | _ => rfl

theorem checkedReload_eq : t.checkedReload = .ok t.reload := by
  unfold checkedReload reload
  rcases due : t.countdown with _ | _ | left
  · simp
  · rw [if_neg (by decide), minus_ok (by decide)]
    rfl
  · rw [if_neg (Nat.succ_ne_zero _), minus_ok (Nat.le_add_left 1 _), ok_bind, if_neg (by omega),
      if_neg (by omega)]
    rfl

theorem checkedAdvance_eq : t.checkedAdvance = .ok t.advance := by
  rw [checkedAdvance, checkedLevel_eq]
  rfl

theorem checkedTick_eq : t.checkedTick = .ok t.tick := by
  rw [checkedTick, checkedReload_eq, ok_bind, checkedAdvance_eq, tick]

theorem checkedStep_eq (n : Nat) : checkedStep n t = .ok (step n t) := by
  induction n generalizing t with
  | zero => rfl
  | succ n ih => rw [checkedStep, checkedTick_eq, ok_bind, ih, step]

end DotMatrix.Timer
