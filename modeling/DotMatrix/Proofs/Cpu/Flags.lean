import DotMatrix.Proofs.Bus.Hardware
import DotMatrix.Proofs.Cpu.Latches

namespace DotMatrix

namespace Flags

section Pack

variable (z n h c : Bool)

@[simp] theorem has_zero_pack : has (pack z n h c) zero = z := by
  revert z n h c; decide

@[simp] theorem has_subtract_pack : has (pack z n h c) subtract = n := by
  revert z n h c; decide

@[simp] theorem has_half_pack : has (pack z n h c) half = h := by
  revert z n h c; decide

@[simp] theorem has_carry_pack : has (pack z n h c) carry = c := by
  revert z n h c; decide

end Pack

/-- Nothing but the four flags. -/
def Tidy (f : UInt8) : Prop := f &&& 0xF0 = f

instance (f : UInt8) : Decidable (Tidy f) := inferInstanceAs (Decidable (_ = _))

theorem tidy_pack (z n h c : Bool) : Tidy (pack z n h c) := by
  revert z n h c; decide

variable {f g : UInt8}

theorem tidy_mask (f : UInt8) : Tidy (f &&& 0xF0) := by
  rw [Tidy, UInt8.and_assoc, UInt8.and_self]

theorem Tidy.and (tidy : Tidy f) (g : UInt8) : Tidy (f &&& g) := by
  rw [Tidy, UInt8.and_assoc, UInt8.and_comm g, ← UInt8.and_assoc, tidy]

theorem Tidy.or (first : Tidy f) (second : Tidy g) : Tidy (f ||| g) := by
  rw [Tidy, or_and_distrib, first, second]

theorem Tidy.xor (first : Tidy f) (second : Tidy g) : Tidy (f ^^^ g) := by
  have split : (f ^^^ g) &&& 0xF0 = f &&& 0xF0 ^^^ g &&& 0xF0 := by
    apply UInt8.toNat_inj.mp
    simp only [UInt8.toNat_and, UInt8.toNat_xor, Nat.and_xor_distrib_right]
  rw [Tidy, split, first, second]

end Flags

open Flags (Tidy)

theorem Cpu.boot_tidy (revision : Revision) : Tidy (Cpu.boot revision).f := by
  cases revision <;> decide

theorem Cpu.withPair_f (s : Cpu) (p : Pair) (w : UInt16) : (s.withPair p w).f = s.f := by
  cases p <;> rfl

theorem Cpu.withStackPair_tidy {s : Cpu} (tidy : Tidy s.f) (p : StackPair) (w : UInt16) :
    Tidy (s.withStackPair p w).f := by
  cases p with
  | af => exact Flags.tidy_mask _
  | _ => exact tidy

theorem Cpu.movePointer_f (s : Cpu) (p : Pointer) : (s.movePointer p).f = s.f := by
  cases p <;> rfl

theorem Core.withOperand_f (s : Core) (r : Operand) (v : UInt8) :
    (s.withOperand r v).cpu.f = s.cpu.f := by
  cases r <;> rfl

theorem Arithmetic.apply_tidy (op : Arithmetic) (a f v : UInt8) : Tidy (op.apply a f v).flags := by
  cases op <;> exact Flags.tidy_pack _ _ _ _

theorem BitInstruction.run_tidy (i : BitInstruction) {s : Core} (tidy : Tidy s.cpu.f) :
    Tidy (i.run s).cpu.f := by
  cases i with
  | shift op r =>
    simp only [run, Core.withComputed, Core.withOperand_f]
    exact Flags.tidy_pack _ _ _ _
  | test bit r => exact Flags.tidy_pack _ _ _ _
  | clear bit r => rwa [run, Core.withOperand_f]
  | raise bit r => rwa [run, Core.withOperand_f]

/-- No instruction sets a bit in the lower half of F. -/
theorem Instruction.run_tidy (i : Instruction) {s : Core} (tidy : Tidy s.cpu.f) :
    Tidy (i.run s).cpu.f := by
  cases i with
  | halt | enableInterrupts | jumpRelative | jump | call | ret =>
    simp only [run]
    split <;> exact tidy
  | decimalAdjust | loadHLSP | addSP | addHL => exact Flags.tidy_pack _ _ _ _
  | complement => exact (tidy.or (by decide)).or (by decide)
  | setCarry => exact (tidy.and _).or (by decide)
  | flipCarry => exact (tidy.and _).xor (by decide)
  | rotate op => exact (Flags.tidy_pack _ _ _ _).and _
  | load dst src => rwa [run, Core.withOperand_f]
  | loadByte dst => rwa [run, Core.withOperand_f]
  | loadHigh | loadHighC | loadDirect => rwa [run, Core.withOperand_f]
  | loadWord | incrementPair | decrementPair =>
    simp only [run, Cpu.withPair_f]
    exact tidy
  | loadFrom p | storeTo p =>
    simp only [run, Cpu.movePointer_f]
    exact tidy
  | increment r | decrement r =>
    simp only [run, Core.withComputed, Core.withOperand_f]
    exact Flags.tidy_pack _ _ _ _
  | arithmetic op src => exact op.apply_tidy _ _ _
  | arithmeticByte op => exact op.apply_tidy _ _ _
  | pop p => exact Cpu.withStackPair_tidy (s := s.drop.cpu) tidy p _
  | prefixed => exact BitInstruction.run_tidy _ tidy
  | _ => exact tidy

namespace Core

theorem fetched_f (s : Core) : s.fetched.cpu.f = s.cpu.f := by
  unfold fetched
  split <;> rfl

theorem settle_f (announced : Bool) (s : Core) : (s.settle announced).cpu.f = s.cpu.f := by
  unfold settle
  split <;> rfl

theorem dispatch_f (i : Interrupts) (s : Core) : (dispatch i s).cpu.f = s.cpu.f := rfl

/-- A slot keeps the flags tidy, whichever way it goes. -/
theorem Slotted.tidy {s : Core} {r : Except Fault Nat × Core} (slot : Slotted s r)
    (tidy : Tidy s.cpu.f) : Tidy r.2.cpu.f := by
  cases slot with
  | stop | halt => exact tidy
  | meaningless =>
    rwa [← fetched_f] at tidy
  | @instruction i =>
    rw [settle_f]
    rw [← fetched_f] at tidy
    exact i.run_tidy tidy

theorem step_tidy {s : Core} (tidy : Tidy s.cpu.f) : Tidy s.step.2.cpu.f := by
  have slot := s.slotted
  have step := s.stepped
  generalize s.step = result at step ⊢
  cases step with
  | locked => exact tidy
  | failed _ outcome | plain _ outcome =>
    rw [outcome] at slot
    exact slot.tidy tidy
  | @served n t i _ outcome =>
    rw [outcome] at slot
    have kept : ((dispatch i t.woken).elapse (n + 20)).cpu.f = t.cpu.f := dispatch_f i t.woken
    rw [kept]
    exact slot.tidy tidy

/-- The flags of a reachable processor are tidy. -/
theorem Reach.tidy {s : Core} (reach : s.Reach) : Tidy s.cpu.f := by
  induction reach with
  | boot revision bus => exact Cpu.boot_tidy revision
  | step _ ih => exact step_tidy ih
  | other _ _ ih => exact ih

end Core

end DotMatrix
