import DotMatrix.Cpu.Instruction

namespace DotMatrix

def Operand.ofCode : Nat → Operand
  | 0 => b
  | 1 => c
  | 2 => d
  | 3 => e
  | 4 => h
  | 5 => l
  | 6 => memory
  | _ => a

def Pair.ofCode : Nat → Pair
  | 0 => bc
  | 1 => de
  | 2 => hl
  | _ => sp

def StackPair.ofCode : Nat → StackPair
  | 0 => bc
  | 1 => de
  | 2 => hl
  | _ => af

def Pointer.ofCode : Nat → Pointer
  | 0 => bc
  | 1 => de
  | 2 => hlUp
  | _ => hlDown

def Condition.ofCode : Nat → Condition
  | 0 => notZero
  | 1 => zero
  | 2 => notCarry
  | _ => carry

def Arithmetic.ofCode : Nat → Arithmetic
  | 0 => add
  | 1 => adc
  | 2 => sub
  | 3 => sbc
  | 4 => and
  | 5 => xor
  | 6 => or
  | _ => compare

def Shift.ofCode : Nat → Shift
  | 0 => rlc
  | 1 => rrc
  | 2 => rl
  | 3 => rr
  | 4 => sla
  | 5 => sra
  | 6 => swap
  | _ => srl

namespace Instruction

/-- The opcodes below 0x40 by their middle and their last three bits. -/
def decodeLow (y : Nat) : Nat → Instruction
  | 0 => match y with
    | 0 => nop
    | 1 => storeSP
    | 2 => stop
    | 3 => jumpRelative none
    | _ => jumpRelative (some (.ofCode (y - 4)))
  | 1 => if y % 2 = 0 then loadWord (.ofCode (y / 2)) else addHL (.ofCode (y / 2))
  | 2 => if y % 2 = 0 then storeTo (.ofCode (y / 2)) else loadFrom (.ofCode (y / 2))
  | 3 => if y % 2 = 0 then incrementPair (.ofCode (y / 2)) else decrementPair (.ofCode (y / 2))
  | 4 => increment (.ofCode y)
  | 5 => decrement (.ofCode y)
  | 6 => loadByte (.ofCode y)
  | _ => match y with
    | 4 => decimalAdjust
    | 5 => complement
    | 6 => setCarry
    | 7 => flipCarry
    | _ => rotate (.ofCode y)

/-- The opcodes from 0xC0 on. Eleven of them mean nothing. -/
def decodeHigh (y : Nat) : Nat → Option Instruction
  | 0 => match y with
    | 4 => some storeHigh
    | 5 => some addSP
    | 6 => some loadHigh
    | 7 => some loadHLSP
    | _ => some (ret (some (.ofCode y)))
  | 1 => match y with
    | 1 => some (ret none)
    | 3 => some retInterrupt
    | 5 => some jumpHL
    | 7 => some loadSPHL
    | _ => some (pop (.ofCode (y / 2)))
  | 2 => match y with
    | 4 => some storeHighC
    | 5 => some storeDirect
    | 6 => some loadHighC
    | 7 => some loadDirect
    | _ => some (jump (some (.ofCode y)))
  | 3 => match y with
    | 0 => some (jump none)
    | 1 => some prefixed
    | 6 => some disableInterrupts
    | 7 => some enableInterrupts
    | _ => none
  | 4 => if y < 4 then some (call (some (.ofCode y))) else none
  | 5 =>
    if y % 2 = 0 then some (push (.ofCode (y / 2)))
    else if y = 1 then some (call none)
    else none
  | 6 => some (arithmeticByte (.ofCode y))
  | _ => some (restart (UInt16.ofNat (8 * y)))

def decode (opcode : UInt8) : Option Instruction :=
  let y := opcode.toNat / 8 % 8
  let z := opcode.toNat % 8
  match opcode.toNat / 64 with
  | 0 => some (decodeLow y z)
  | 1 => some (if y = 6 ∧ z = 6 then halt else load (.ofCode y) (.ofCode z))
  | 2 => some (arithmetic (.ofCode y) (.ofCode z))
  | _ => decodeHigh y z

end Instruction

def BitInstruction.decode (b : UInt8) : BitInstruction :=
  let y := b.toNat / 8 % 8
  let r := Operand.ofCode (b.toNat % 8)
  match b.toNat / 64 with
  | 0 => shift (.ofCode y) r
  | 1 => test y r
  | 2 => clear y r
  | _ => raise y r

example : Instruction.decode 0x36 = some (.loadByte .memory) := by decide
example : Instruction.decode 0xEC = none := by decide

end DotMatrix
