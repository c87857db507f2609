import DotMatrix.Cpu.Step

namespace DotMatrix

/-- What the processor keeps besides its registers. -/
structure Control where
  cycles : Nat
  ime : Bool
  imeNext : Bool
  halted : Bool
  stopped : Bool
  doubleFetch : Bool
  fault : Option Fault
  deriving DecidableEq

/-- The part of a processor that decides what it does next. -/
def Cpu.control (s : Cpu) : Control where
  cycles := s.cycles
  ime := s.ime
  imeNext := s.imeNext
  halted := s.halted
  stopped := s.stopped
  doubleFetch := s.doubleFetch
  fault := s.fault

namespace Cpu

@[simp] theorem withPair_control (s : Cpu) (p : Pair) (w : UInt16) :
    (s.withPair p w).control = s.control := by
  cases p <;> rfl

@[simp] theorem withStackPair_control (s : Cpu) (p : StackPair) (w : UInt16) :
    (s.withStackPair p w).control = s.control := by
  cases p <;> rfl

@[simp] theorem movePointer_control (s : Cpu) (p : Pointer) :
    (s.movePointer p).control = s.control := by
  cases p <;> rfl

theorem boot_control (revision : Revision) :
    (boot revision).control = ⟨0, false, false, false, false, false, none⟩ := by
  cases revision <;> rfl

end Cpu

namespace Core

@[simp] theorem withOperand_control (s : Core) (r : Operand) (v : UInt8) :
    (s.withOperand r v).cpu.control = s.cpu.control := by
  cases r <;> rfl

@[simp] theorem withComputed_control (s : Core) (r : Operand) (c : Computed) :
    (s.withComputed r c).cpu.control = s.cpu.control :=
  withOperand_control _ r c.value

end Core

theorem BitInstruction.run_control (i : BitInstruction) (s : Core) :
    (i.run s).cpu.control = s.cpu.control := by
  cases i with
  | shift op r => exact Core.withComputed_control _ _ _
  | test bit r => rfl
  | clear bit r => exact Core.withOperand_control _ _ _
  | raise bit r => exact Core.withOperand_control _ _ _

/-- What an instruction does to the control state. Six instructions are the only ones that touch
it, and the bus matters to one of them, through whether an interrupt is `pending`. -/
def Instruction.steer (i : Instruction) (pending : Bool) (c : Control) : Control :=
  match i with
  | stop => { c with stopped := true }
  | halt =>
    if !c.ime && pending then { c with doubleFetch := true } else { c with halted := true }
  | disableInterrupts => { c with ime := false, imeNext := false }
  | enableInterrupts => if c.ime then c else { c with imeNext := true }
  | retInterrupt => { c with ime := true }
  | _ => c

/-- Registers and memories never decide what becomes of the control state. -/
theorem Instruction.run_control (i : Instruction) (s : Core) :
    (i.run s).cpu.control = i.steer (!s.bus.pending.isEmpty) s.cpu.control := by
  cases i with
  | halt =>
    simp only [run, steer]
    by_cases fails : (!s.cpu.ime && !s.bus.pending.isEmpty) = true
    · rw [if_pos fails, if_pos (show (!s.cpu.control.ime && _) = true from fails)]
      rfl
    · rw [if_neg fails, if_neg (show ¬(!s.cpu.control.ime && _) = true from fails)]
      rfl
  | enableInterrupts =>
    simp only [run, steer]
    by_cases enabled : s.cpu.ime = true
    · rw [if_pos enabled, if_pos (show s.cpu.control.ime = true from enabled)]
    · rw [if_neg enabled, if_neg (show ¬s.cpu.control.ime = true from enabled)]
      rfl
  | load | loadByte | loadHigh | loadHighC | loadDirect => exact Core.withOperand_control _ _ _
  | increment | decrement => exact Core.withComputed_control _ _ _
  | loadWord | incrementPair | decrementPair => exact Cpu.withPair_control _ _ _
  | pop => exact Cpu.withStackPair_control _ _ _
  | loadFrom p | storeTo p => exact Cpu.movePointer_control _ p
  | jumpRelative | jump | call | ret => simp only [run, steer]; split <;> rfl
  | prefixed => exact BitInstruction.run_control _ _
  | _ => rfl

end DotMatrix
