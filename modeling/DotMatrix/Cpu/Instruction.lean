import DotMatrix.Cpu.Arithmetic

namespace DotMatrix

/-- A byte register, or the byte that HL points at. -/
inductive Operand
  | b | c | d | e | h | l | memory | a
  deriving DecidableEq

inductive Pair
  | bc | de | hl | sp
  deriving DecidableEq

inductive StackPair
  | bc | de | hl | af
  deriving DecidableEq

/-- A pair that points at a byte. The last two move HL on. -/
inductive Pointer
  | bc | de | hlUp | hlDown
  deriving DecidableEq

inductive Condition
  | notZero | zero | notCarry | carry
  deriving DecidableEq

inductive Instruction
  | nop
  | stop
  | halt
  | disableInterrupts
  | enableInterrupts
  | decimalAdjust
  | complement
  | setCarry
  | flipCarry
  | rotate (op : Shift)
  | load (dst src : Operand)
  | loadByte (dst : Operand)
  | loadWord (dst : Pair)
  | loadFrom (p : Pointer)
  | storeTo (p : Pointer)
  /-- The address is a byte in the topmost page. -/
  | loadHigh
  | storeHigh
  /-- The address is C in the topmost page. -/
  | loadHighC
  | storeHighC
  | loadDirect
  | storeDirect
  | storeSP
  | loadSPHL
  | loadHLSP
  | addSP
  | increment (r : Operand)
  | decrement (r : Operand)
  | incrementPair (p : Pair)
  | decrementPair (p : Pair)
  | addHL (p : Pair)
  | arithmetic (op : Arithmetic) (src : Operand)
  | arithmeticByte (op : Arithmetic)
  | pop (p : StackPair)
  | push (p : StackPair)
  /-- The condition of a jump, a call or a return; without one it is always taken. -/
  | jumpRelative (when : Option Condition)
  | jump (when : Option Condition)
  | jumpHL
  | call (when : Option Condition)
  | ret (when : Option Condition)
  | retInterrupt
  | restart (target : UInt16)
  /-- A second byte says what to do. -/
  | prefixed
  deriving DecidableEq

/-- What the second byte of a prefixed instruction says. -/
inductive BitInstruction
  | shift (op : Shift) (r : Operand)
  | test (bit : Nat) (r : Operand)
  | clear (bit : Nat) (r : Operand)
  | raise (bit : Nat) (r : Operand)
  deriving DecidableEq

end DotMatrix
