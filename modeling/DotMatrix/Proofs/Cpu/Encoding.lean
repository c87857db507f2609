import DotMatrix.Cpu.Decode
import DotMatrix.Proofs.Bytes

namespace DotMatrix

-- The constructors stand in the order of their codes.

/-- The code of an operand within an opcode. -/
def Operand.code (r : Operand) : UInt8 := .ofNat r.ctorIdx

/-- The code of a register pair. -/
def Pair.code (p : Pair) : UInt8 := .ofNat p.ctorIdx

/-- The code of a pair on the stack, where the last is the flags' one. -/
def StackPair.code (p : StackPair) : UInt8 := .ofNat p.ctorIdx

/-- The code of a pointer. -/
def Pointer.code (p : Pointer) : UInt8 := .ofNat p.ctorIdx

/-- The code of a condition. -/
def Condition.code (c : Condition) : UInt8 := .ofNat c.ctorIdx

/-- The code of an operation on the accumulator. -/
def Arithmetic.code (op : Arithmetic) : UInt8 := .ofNat op.ctorIdx

/-- The code of a shift. -/
def Shift.code (op : Shift) : UInt8 := .ofNat op.ctorIdx

namespace Instruction

/-- The opcode of an instruction, built from what stands in it. Only the rotations have an opcode
among the shifts, a byte is not loaded from memory to memory, and a restart goes to a multiple of
eight in the first 64 bytes. -/
def opcode? : Instruction → Option UInt8
  | nop => some 0x00
  | stop => some 0x10
  | halt => some 0x76
  | disableInterrupts => some 0xF3
  | enableInterrupts => some 0xFB
  | decimalAdjust => some 0x27
  | complement => some 0x2F
  | setCarry => some 0x37
  | flipCarry => some 0x3F
  | rotate op => if op.code < 4 then some (0x07 + 8 * op.code) else none
  | load .memory .memory => none
  | load dst src => some (0x40 + 8 * dst.code + src.code)
  | loadByte dst => some (0x06 + 8 * dst.code)
  | loadWord dst => some (0x01 + 16 * dst.code)
  | loadFrom p => some (0x0A + 16 * p.code)
  | storeTo p => some (0x02 + 16 * p.code)
  | loadHigh => some 0xF0
  | storeHigh => some 0xE0
  | loadHighC => some 0xF2
  | storeHighC => some 0xE2
  | loadDirect => some 0xFA
  | storeDirect => some 0xEA
  | storeSP => some 0x08
  | loadSPHL => some 0xF9
  | loadHLSP => some 0xF8
  | addSP => some 0xE8
  | increment r => some (0x04 + 8 * r.code)
  | decrement r => some (0x05 + 8 * r.code)
  | incrementPair p => some (0x03 + 16 * p.code)
  | decrementPair p => some (0x0B + 16 * p.code)
  | addHL p => some (0x09 + 16 * p.code)
  | arithmetic op src => some (0x80 + 8 * op.code + src.code)
  | arithmeticByte op => some (0xC6 + 8 * op.code)
  | pop p => some (0xC1 + 16 * p.code)
  | push p => some (0xC5 + 16 * p.code)
  | jumpRelative none => some 0x18
  | jumpRelative (some c) => some (0x20 + 8 * c.code)
  | jump none => some 0xC3
  | jump (some c) => some (0xC2 + 8 * c.code)
  | jumpHL => some 0xE9
  | call none => some 0xCD
  | call (some c) => some (0xC4 + 8 * c.code)
  | ret none => some 0xC9
  | ret (some c) => some (0xC0 + 8 * c.code)
  | retInterrupt => some 0xD9
  | restart target =>
    if target.toNat < 64 ∧ target.toNat % 8 = 0 then some (0xC7 + target.toUInt8) else none
  | prefixed => some 0xCB

/-- The opcodes of no instruction. -/
def meaningless : List UInt8 :=
  [0xD3, 0xDB, 0xDD, 0xE3, 0xE4, 0xEB, 0xEC, 0xED, 0xF4, 0xFC, 0xFD]

theorem decode_eq_none_iff {opcode : UInt8} : decode opcode = none ↔ opcode ∈ meaningless :=
  forall_byte (P := fun b => decode b = none ↔ b ∈ meaningless) (by decide +kernel) opcode

/-- Every opcode is the one of its instruction. -/
theorem opcode?_of_decode {opcode : UInt8} {i : Instruction} (meaning : decode opcode = some i) :
    i.opcode? = some opcode :=
  forall_byte (P := fun b => ∀ i ∈ decode b, i.opcode? = some b) (by decide +kernel) opcode i
    meaning

/-- The opcode of an instruction decodes to it. -/
theorem decode_of_opcode? {opcode : UInt8} {i : Instruction} (coded : i.opcode? = some opcode) :
    decode opcode = some i := by
  cases i with
  | rotate op => cases op <;> cases coded <;> rfl
  | load dst src => cases dst <;> cases src <;> cases coded <;> rfl
  | arithmetic op src => cases op <;> cases src <;> cases coded <;> rfl
  | arithmeticByte op => cases op <;> cases coded <;> rfl
  | loadByte r | increment r | decrement r => cases r <;> cases coded <;> rfl
  | loadWord p | loadFrom p | storeTo p | incrementPair p | decrementPair p | addHL p | pop p
  | push p => cases p <;> cases coded <;> rfl
  | jumpRelative when | jump when | call when | ret when =>
    rcases when with _ | c
    · cases coded
      rfl
    · cases c <;> cases coded <;> rfl
  | restart target =>
    have table : ∀ n : Fin 64, ∀ opcode ∈ opcode? (restart (UInt16.ofNat n)),
        decode opcode = some (restart (UInt16.ofNat n)) := by
      decide +kernel
    have near := (Option.ite_none_right_eq_some.mp coded).1.1
    have found := table ⟨target.toNat, near⟩ opcode
    rw [UInt16.ofNat_toNat] at found
    exact found coded
  | _ =>
    cases coded
    rfl

/-- The decoder is the inverse of the encoding. -/
theorem decode_eq_some_iff {opcode : UInt8} {i : Instruction} :
    decode opcode = some i ↔ i.opcode? = some opcode :=
  ⟨opcode?_of_decode, decode_of_opcode?⟩

end Instruction

namespace BitInstruction

/-- The second byte of a prefixed instruction. Only eight bits have one. -/
def opcode? : BitInstruction → Option UInt8
  | shift op r => some (8 * op.code + r.code)
  | test bit r => if bit < 8 then some (0x40 + 8 * .ofNat bit + r.code) else none
  | clear bit r => if bit < 8 then some (0x80 + 8 * .ofNat bit + r.code) else none
  | raise bit r => if bit < 8 then some (0xC0 + 8 * .ofNat bit + r.code) else none

theorem decode_place (bit : Fin 8) (r : Operand) :
    decode (0x40 + 8 * .ofNat bit + r.code) = test bit r ∧
      decode (0x80 + 8 * .ofNat bit + r.code) = clear bit r ∧
      decode (0xC0 + 8 * .ofNat bit + r.code) = raise bit r := by
  revert bit
  cases r <;> decide

theorem decode_of_opcode? {b : UInt8} {i : BitInstruction} (coded : i.opcode? = some b) :
    decode b = i := by
  cases i with
  | shift op r => cases op <;> cases r <;> cases coded <;> rfl
  | test bit r | clear bit r | raise bit r =>
    obtain ⟨small, same⟩ := Option.ite_none_right_eq_some.mp coded
    cases same
    obtain ⟨tests, clears, raises⟩ := decode_place ⟨bit, small⟩ r
    assumption

theorem opcode?_decode : ∀ b : UInt8, (decode b).opcode? = some b :=
  forall_byte (by decide +kernel)

/-- Prefixed instructions and their second bytes stand for each other. -/
theorem decode_eq_iff {b : UInt8} {i : BitInstruction} : decode b = i ↔ i.opcode? = some b := by
  refine ⟨fun meaning => ?_, decode_of_opcode?⟩
  rw [← meaning, opcode?_decode]

end BitInstruction

end DotMatrix
