import DotMatrix.Proofs.Cpu.Calls
import DotMatrix.Proofs.Cpu.Encoding
import DotMatrix.Proofs.Timer.Divider

namespace DotMatrix

namespace Cpu

theorem withPair_pc (s : Cpu) (p : Pair) (w : UInt16) : (s.withPair p w).pc = s.pc := by
  cases p <;> rfl

theorem withStackPair_pc (s : Cpu) (p : StackPair) (w : UInt16) :
    (s.withStackPair p w).pc = s.pc := by
  cases p <;> rfl

theorem movePointer_pc (s : Cpu) (p : Pointer) : (s.movePointer p).pc = s.pc := by
  cases p <;> rfl

end Cpu

namespace Core

theorem withOperand_pc (s : Core) (r : Operand) (v : UInt8) :
    (s.withOperand r v).cpu.pc = s.cpu.pc := by
  cases r <;> rfl

theorem withComputed_pc (s : Core) (r : Operand) (c : Computed) :
    (s.withComputed r c).cpu.pc = s.cpu.pc :=
  withOperand_pc _ r c.value

theorem skip_zero (s : Core) : s.skip 0 = s := by
  simp only [skip, jump, UInt16.add_zero]

theorem skip_skip (s : Core) (m n : UInt16) : (s.skip m).skip n = s.skip (m + n) := by
  simp only [skip, jump, UInt16.add_assoc]

end Core

namespace BitInstruction

/-- An instruction on bits stays where its two bytes have brought it. -/
theorem run_pc (i : BitInstruction) (s : Core) : (i.run s).cpu.pc = s.cpu.pc := by
  cases i with
  | shift op r => exact Core.withComputed_pc _ _ _
  | test bit r => rfl
  | clear bit r => exact Core.withOperand_pc _ _ _
  | raise bit r => exact Core.withOperand_pc _ _ _

/-- Clearing and setting a bit leave the flags alone. -/
def keepsFlags : BitInstruction → Bool
  | clear _ _ | raise _ _ => true
  | shift _ _ | test _ _ => false

theorem run_f {i : BitInstruction} (keeps : i.keepsFlags = true) (s : Core) :
    (i.run s).cpu.f = s.cpu.f := by
  cases i with
  | clear bit r | raise bit r => exact Core.withOperand_f _ _ _
  | shift | test => cases keeps

/-- It writes back a byte in memory. -/
def writesMemory : BitInstruction → Bool
  | shift _ r | clear _ r | raise _ r => r = .memory
  | test _ _ => false

end BitInstruction

theorem Operand.writes_of_ne {r : Operand} (register : r ≠ .memory) (hl : UInt16) (v : UInt8) :
    r.writes hl v = [] := by
  cases r <;> first | rfl | contradiction

/-- An instruction on bits writes only if it has memory for its operand. -/
theorem BitInstruction.writes_eq_nil {i : BitInstruction} (quiet : i.writesMemory = false)
    (s : Core) : i.writes s = [] := by
  cases i with
  | shift _ r | clear _ r | raise _ r => exact Operand.writes_of_ne (of_decide_eq_false quiet) _ _
  | test => rfl

namespace Instruction

/-- The bytes that follow the opcode. -/
def operandLength : Instruction → UInt16
  | loadWord _ | loadDirect | storeDirect | storeSP | jump _ | call _ => 2
  | stop | loadByte _ | loadHigh | storeHigh | loadHLSP | addSP | arithmeticByte _ => 1
  | jumpRelative _ | prefixed => 1
  | _ => 0

/-- The bytes that it takes in the program. -/
def length (i : Instruction) : UInt16 := 1 + i.operandLength

/-- It may go on elsewhere. -/
def branches : Instruction → Bool
  | jumpRelative _ | jump _ | jumpHL | call _ | ret _ | retInterrupt | restart _ => true
  | _ => false

/-- Any instruction that does not branch goes on behind its operand. -/
theorem run_pc {i : Instruction} (straight : i.branches = false) (s : Core) :
    (i.run s).cpu.pc = s.cpu.pc + i.operandLength := by
  cases i with
  | jumpRelative | jump | jumpHL | call | ret | retInterrupt | restart => cases straight
  | stop | storeHigh | storeDirect | storeSP | loadHLSP | addSP | arithmeticByte => rfl
  | loadByte | loadHigh | loadDirect => exact Core.withOperand_pc _ _ _
  | loadWord => exact Cpu.withPair_pc _ _ _
  | prefixed => exact BitInstruction.run_pc _ _
  | load | loadHighC => exact (Core.withOperand_pc _ _ _).trans (UInt16.add_zero _).symm
  | increment | decrement => exact (Core.withComputed_pc _ _ _).trans (UInt16.add_zero _).symm
  | incrementPair | decrementPair => exact (Cpu.withPair_pc _ _ _).trans (UInt16.add_zero _).symm
  | loadFrom p | storeTo p => exact (Cpu.movePointer_pc _ p).trans (UInt16.add_zero _).symm
  | pop p => exact (Cpu.withStackPair_pc _ p _).trans (UInt16.add_zero _).symm
  | halt | enableInterrupts =>
    simp only [run, operandLength, UInt16.add_zero]
    split <;> rfl
  | _ => exact (UInt16.add_zero _).symm

/-- It leaves F alone, `b` being what a prefixed one goes on with. -/
def keepsFlags (b : BitInstruction) : Instruction → Bool
  | load _ _ | loadByte _ | loadWord _ | loadFrom _ | storeTo _ | loadHigh | storeHigh => true
  | loadHighC | storeHighC | loadDirect | storeDirect | storeSP | loadSPHL => true
  | push _ => true
  | pop p => p ≠ .af
  | incrementPair _ | decrementPair _ => true
  | jumpRelative _ | jump _ | jumpHL | call _ | ret _ | retInterrupt | restart _ => true
  | nop | halt | stop | enableInterrupts | disableInterrupts => true
  | prefixed => b.keepsFlags
  | _ => false

/-- Flags that an instruction is not to touch are as before. -/
theorem run_f {i : Instruction} {s : Core}
    (keeps : i.keepsFlags (BitInstruction.decode s.immediate) = true) :
    (i.run s).cpu.f = s.cpu.f := by
  cases i with
  | halt | enableInterrupts | jumpRelative | jump | call | ret =>
    simp only [run]
    split <;> rfl
  | load | loadByte | loadHigh | loadHighC | loadDirect => exact Core.withOperand_f _ _ _
  | loadWord | incrementPair | decrementPair => exact Cpu.withPair_f _ _ _
  | loadFrom p | storeTo p => exact Cpu.movePointer_f _ p
  | pop p =>
    cases p with
    | af => cases keeps
    | _ => rfl
  | prefixed => exact BitInstruction.run_f keeps _
  | decimalAdjust | complement | setCarry | flipCarry | rotate | loadHLSP | addSP | increment
  | decrement | addHL | arithmetic | arithmeticByte => cases keeps
  | _ => rfl

/-- It writes to the bus, with `b` as what a prefixed one goes on with and `f` as the flags that a
call looks at. -/
def writesBus (b : BitInstruction) (f : UInt8) : Instruction → Bool
  | load r _ | loadByte r | increment r | decrement r => r = .memory
  | storeTo _ | storeHigh | storeHighC | storeDirect | storeSP => true
  | push _ | restart _ => true
  | call when => Condition.allows f when
  | stop => true
  | prefixed => b.writesMemory
  | _ => false

theorem writes_eq_nil {i : Instruction} {s : Core}
    (quiet : i.writesBus (BitInstruction.decode s.immediate) s.cpu.f = false) :
    i.writes s = [] := by
  cases i with
  | load r _ | loadByte r | increment r | decrement r =>
    exact Operand.writes_of_ne (of_decide_eq_false quiet) _ _
  | storeTo | storeHigh | storeHighC | storeDirect | storeSP | push | restart | stop => cases quiet
  | call when => exact if_neg (Bool.eq_false_iff.mp quiet)
  | prefixed => exact BitInstruction.writes_eq_nil quiet _
  | _ => rfl

/-- The condition on which it branches. -/
def condition? : Instruction → Option Condition
  | jumpRelative when | jump when | call when | ret when => when
  | _ => none

/-- A branch that is not taken only goes on to the next instruction. -/
theorem run_of_not_holds {i : Instruction} {c : Condition} {s : Core}
    (conditional : i.condition? = some c) (fails : c.holds s.cpu.f = false) :
    i.run s = s.skip i.operandLength := by
  cases i with
  | jumpRelative when | jump when | call when =>
    obtain rfl : when = some c := conditional
    exact if_neg (Bool.eq_false_iff.mp fails)
  | ret when =>
    obtain rfl : when = some c := conditional
    exact (if_neg (Bool.eq_false_iff.mp fails)).trans s.skip_zero.symm
  | _ => cases conditional

end Instruction

/-- A write to the divider clears it, whatever the byte. -/
theorem Bus.write_divider_eq (s : Bus) (v : UInt8) :
    s.write 0xFF04 v = { s with timer := s.timer.clearDivider } := by
  rw [write, writeBy, Cell.ofAddress_eq_divider.mpr rfl]
  rfl

namespace Core

theorem settle_pc (announced : Bool) (s : Core) : (s.settle announced).cpu.pc = s.cpu.pc := by
  unfold settle
  split <;> rfl

/-- Executing an opcode with a meaning is fetching it, running it and settling. -/
theorem execute_of_decode {s : Core} {i : Instruction} (single : s.cpu.doubleFetch = false)
    (meaning : Instruction.decode s.immediate = some i) :
    s.execute = (.ok (i.cost (s.skip 1)), (i.run (s.skip 1)).settle s.cpu.imeNext) := by
  simp only [execute, meaning, fetched_of_single single]

/-- What an instruction leaves alone, when no opcode is fetched twice. One that does not branch goes
on behind its last byte. Loads, the stack, branches and control leave the flags alone, and whatever
writes nothing leaves the bus alone. A stop clears the divider there and does nothing else, and a
branch that is not taken changes nothing but the place in the program, unless enabling that was
delayed comes into effect. -/
theorem execute_effects {s : Core} (single : s.cpu.doubleFetch = false)
    (legal : s.immediate ∉ Instruction.meaningless) :
    ∃ i b t, Instruction.opcode? i = some s.immediate ∧
      BitInstruction.opcode? b = some (s.bus.read (s.cpu.pc + 1)) ∧
      s.execute = (.ok (i.cost (s.skip 1)), t) ∧
      (i.branches = false → t.cpu.pc = s.cpu.pc + i.length) ∧
      (i.keepsFlags b = true → t.cpu.f = s.cpu.f) ∧
      (i.writesBus b s.cpu.f = false → t.bus = s.bus) ∧
      (i = .stop → t.bus = { s.bus with timer := s.bus.timer.clearDivider }) ∧
      ∀ c, i.condition? = some c → c.holds s.cpu.f = false →
        t = (s.skip i.length).settle s.cpu.imeNext := by
  obtain ⟨i, meaning⟩ : ∃ i, Instruction.decode s.immediate = some i :=
    Option.ne_none_iff_exists'.mp (legal ∘ Instruction.decode_eq_none_iff.mp)
  refine ⟨i, .decode (s.skip 1).immediate, _, Instruction.opcode?_of_decode meaning,
    BitInstruction.opcode?_decode _, execute_of_decode single meaning, fun straight => ?_,
    fun keeps => ?_, fun quiet => ?_, fun stops => ?_, fun c conditional fails => ?_⟩
  · rw [settle_pc, Instruction.run_pc straight, Instruction.length, ← UInt16.add_assoc]
    rfl
  · rw [settle_f]
    exact Instruction.run_f keeps
  · rw [settle_bus, Instruction.run_bus, Instruction.writes_eq_nil quiet]
    rfl
  · subst stops
    rw [settle_bus]
    exact s.bus.write_divider_eq 0
  · rw [Instruction.run_of_not_holds (s := s.skip 1) conditional fails, skip_skip,
      Instruction.length]

/-- A stop, and a jump that is not taken. -/
theorem execute_effects_from_start :
    (∃ c t, (start c).immediate = 0x10 ∧ (start c).execute = (.ok 4, t) ∧
      t.cpu.pc = 0x102 ∧ t.cpu.f = 0xB0 ∧
      t.bus = { (start c).bus with timer := (start c).bus.timer.clearDivider }) ∧
    ∃ c t, (start c).immediate = 0x20 ∧ (start c).execute = (.ok 8, t) ∧
      t.bus = (start c).bus ∧ t = ((start c).skip 2).settle false := by
  constructor
  · obtain ⟨c, opcode⟩ := exists_start 0x10
    have legal : (start c).immediate ∉ Instruction.meaningless := by
      rw [opcode]
      decide
    obtain ⟨i, b, t, coded, -, execute, pc, f, -, bus, -⟩ := execute_effects (s := start c) rfl legal
    rw [opcode] at coded
    obtain rfl : Instruction.stop = i := Option.some.inj (Instruction.decode_of_opcode? coded)
    exact ⟨c, t, opcode, execute, pc rfl, f rfl, bus rfl⟩
  · obtain ⟨c, opcode⟩ := exists_start 0x20
    have legal : (start c).immediate ∉ Instruction.meaningless := by
      rw [opcode]
      decide
    obtain ⟨i, b, t, coded, -, execute, -, -, bus, -, passed⟩ :=
      execute_effects (s := start c) rfl legal
    rw [opcode] at coded
    obtain rfl : Instruction.jumpRelative (some .notZero) = i :=
      Option.some.inj (Instruction.decode_of_opcode? coded)
    have zero : Condition.holds (Cpu.boot .standard).f .notZero = false := by decide
    have cost : (Instruction.jumpRelative (some .notZero)).cost ((start c).skip 1) = 8 :=
      if_neg (Bool.eq_false_iff.mp zero)
    rw [cost] at execute
    exact ⟨c, t, opcode, execute, bus rfl, passed .notZero rfl zero⟩

end Core

end DotMatrix
