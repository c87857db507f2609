import DotMatrix.Proofs.Bus.Frame
import DotMatrix.Proofs.Cpu.Enabling
import DotMatrix.Proofs.Cpu.Writes

namespace DotMatrix

theorem Timer.step_divider (n : Nat) (t : Timer) :
    (t.step n).divider = t.divider + UInt16.ofNat n := by
  induction n generalizing t with
  | zero => exact (UInt16.add_zero _).symm
  | succ n ih =>
    rw [step, ih, tick_divider, UInt16.add_assoc, UInt16.add_comm 1, ← UInt16.ofNat_one,
      ← UInt16.ofNat_add]

theorem Timer.Register.at?_eq_divider {a : UInt16} (found : at? a = some .divider) :
    a = 0xFF04 := by
  unfold at? at found
  split_ifs at found with here
  · exact here
  all_goals cases found

theorem Cell.ofAddress_eq_divider {a : UInt16} :
    Cell.ofAddress a = .timer .divider ↔ a = 0xFF04 := by
  constructor
  · intro same
    unfold Cell.ofAddress at same
    dsimp only at same
    split_ifs at same
    all_goals
      split at same
      · rename_i r found
        rw [Cell.timer.inj same] at found
        exact Timer.Register.at?_eq_divider found
      · cases same
  · rintro rfl
    decide

namespace Bus

/-- A write to the address of the divider clears it, whatever the byte. -/
theorem write_divider (s : Bus) (a : UInt16) (v : UInt8) :
    (s.write a v).timer.divider = if a = 0xFF04 then 0 else s.timer.divider := by
  by_cases here : a = 0xFF04
  · rw [if_pos here, write, writeBy, Cell.ofAddress_eq_divider.mpr here]
    rfl
  have other := mt Cell.ofAddress_eq_divider.mp here
  rw [if_neg here]
  unfold write writeBy
  generalize Cell.ofAddress a = cell at other
  cases cell with
  | timer r =>
    simp only [writeCell, writeTimer, Timer.write]
    cases r with
    | divider => exact absurd rfl other
    | counter => dsimp only; split <;> rfl
    | _ => rfl
  | register r =>
    obtain ⟨registers, oam, sound, result⟩ := s.writeRegister_frame .program r v
    simp only [writeCell, result]
  | _ => rfl

/-- Some writes clear the divider exactly if one of them goes to it. -/
theorem writeAll_divider (s : Bus) (writes : List (UInt16 × UInt8)) :
    (s.writeAll writes).timer.divider =
      if writes.any (·.1 == 0xFF04) then 0 else s.timer.divider := by
  induction writes generalizing s with
  | nil => rfl
  | cons w rest ih =>
    rw [writeAll_cons, ih, write_divider, List.any_cons]
    by_cases here : w.1 = 0xFF04
    · rw [if_pos here, beq_iff_eq.mpr here, Bool.true_or, if_pos rfl, ite_self]
    · rw [if_neg here, beq_eq_false_iff_ne.mpr here, Bool.false_or]

end Bus

namespace Core

/-- Whether a step clears the divider, by a stop or by a write. -/
def clearsDivider (s : Core) : Bool :=
  s.executed? == some .stop || s.writes.any (·.1 == 0xFF04)

theorem any_writes_of_stop {s : Core} (executed : s.executed? = some .stop) :
    s.writes.any (·.1 == 0xFF04) = true := by
  obtain ⟨unlocked, going, running, meaning⟩ := ready_of_executed executed
  have slot : s.slotWrites = [(0xFF04, 0)] := by
    simp only [slotWrites, going, running, meaning, Bool.or_self, Bool.false_eq_true, if_false]
    rfl
  rw [writes, unlocked, slot]
  rfl

theorem step_divider {s : Core} (unlocked : s.cpu.fault = none) :
    s.step.2.bus.timer.divider = if s.clearsDivider then 0 else s.bus.timer.divider := by
  have cause : s.clearsDivider = s.writes.any (·.1 == 0xFF04) := by
    unfold clearsDivider
    by_cases stop : s.executed? = some .stop
    · rw [any_writes_of_stop stop, Bool.or_true]
    · rw [beq_eq_false_iff_ne.mpr stop, Bool.false_or]
  rw [cause, step_bus s unlocked]
  split
  · exact Bus.writeAll_divider _ _
  · rename_i i choice
    simp only [writes, unlocked, choice, Option.isSome_some, if_true, List.any_append]
    rw [Bus.writeAll_divider, Bus.writeAll_divider]
    cases s.slotWrites.any (·.1 == 0xFF04) with
    | true => simp only [Bool.true_or, if_true, ite_self]
    | false => simp only [Bool.false_or, Bool.false_eq_true, if_false]

end Core

end DotMatrix
