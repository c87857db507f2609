import DotMatrix.Cpu.Execute

namespace DotMatrix

/-- What an access costs beyond a register: nothing, or `extra` at the address in HL. -/
def Operand.extra (r : Operand) (extra : Nat) : Nat :=
  match r with
  | memory => extra
  | _ => 0

/-- In cycles. A test does not write its operand back. -/
def BitInstruction.cost : BitInstruction → Nat
  | shift _ r => 8 + r.extra 8
  | test _ r => 8 + r.extra 4
  | clear _ r => 8 + r.extra 8
  | raise _ r => 8 + r.extra 8

/-- In cycles, from the opcode's fetch on. A branch that is not taken is cheaper. -/
def Instruction.cost (i : Instruction) (s : Core) : Nat :=
  let branch (when : Option Condition) (taken passed : Nat) :=
    if Condition.allows s.cpu.f when then taken else passed
  match i with
  | nop | stop | halt | disableInterrupts | enableInterrupts => 4
  | decimalAdjust | complement | setCarry | flipCarry | rotate _ => 4
  | load .memory _ | load _ .memory => 8
  | load _ _ => 4
  | loadByte r => 8 + r.extra 4
  | loadWord _ => 12
  | loadFrom _ | storeTo _ => 8
  | loadHigh | storeHigh => 12
  | loadHighC | storeHighC => 8
  | loadDirect | storeDirect => 16
  | storeSP => 20
  | loadSPHL => 8
  | loadHLSP => 12
  | addSP => 16
  | increment r | decrement r => 4 + r.extra 8
  | incrementPair _ | decrementPair _ | addHL _ => 8
  | arithmetic _ r => 4 + r.extra 4
  | arithmeticByte _ => 8
  | pop _ => 12
  | push _ => 16
  | jumpRelative when => branch when 12 8
  | jump when => branch when 16 12
  | jumpHL => 4
  | call when => branch when 24 12
  | ret none => 16
  | ret when => branch when 20 8
  | retInterrupt | restart _ => 16
  | prefixed => (BitInstruction.decode s.immediate).cost

end DotMatrix
