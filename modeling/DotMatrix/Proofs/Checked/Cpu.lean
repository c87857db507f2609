import DotMatrix.Proofs.Bytes
import DotMatrix.Proofs.Checked.Bus
import DotMatrix.Proofs.Cpu.Cycles
import DotMatrix.Proofs.Cpu.Writes

namespace DotMatrix

open Checked

namespace Computed

/-- The half carry comes from a sum of bytes, the carry from one of words. -/
def checkedSum (a v : UInt8) (carry : Bool) : Checked Computed := do
  let value := a + v + carry.toUInt8
  let half ← plus 8 (← plus 8 (a.toNat % 16) (v.toNat % 16)) carry.toNat
  let whole ← plus 16 (← plus 16 a.toNat v.toNat) carry.toNat
  return ⟨value, Flags.pack (value = 0) false (half > 15) (whole > 255)⟩

/-- The half borrow compares sums of digits, the borrow sums of bytes. -/
def checkedDifference (a v : UInt8) (carry : Bool) : Checked Computed := do
  let value := a - v - carry.toUInt8
  let half ← plus 8 (v.toNat % 16) carry.toNat
  let whole ← plus 16 v.toNat carry.toNat
  return ⟨value, Flags.pack (value = 0) true (a.toNat % 16 < half) (a.toNat < whole)⟩

theorem checkedSum_eq (a v : UInt8) (carry : Bool) : checkedSum a v carry = .ok (sum a v carry) := by
  have first := a.toNat_lt
  have second := v.toNat_lt
  have third := carry.toNat_le
  simp only [checkedSum, plus_ok (show a.toNat % 16 + v.toNat % 16 < 2 ^ 8 by omega),
    plus_ok (show a.toNat % 16 + v.toNat % 16 + carry.toNat < 2 ^ 8 by omega),
    plus_ok (show a.toNat + v.toNat < 2 ^ 16 by omega),
    plus_ok (show a.toNat + v.toNat + carry.toNat < 2 ^ 16 by omega), ok_bind]
  rfl

theorem checkedDifference_eq (a v : UInt8) (carry : Bool) :
    checkedDifference a v carry = .ok (difference a v carry) := by
  have second := v.toNat_lt
  have third := carry.toNat_le
  simp only [checkedDifference, plus_ok (show v.toNat % 16 + carry.toNat < 2 ^ 8 by omega),
    plus_ok (show v.toNat + carry.toNat < 2 ^ 16 by omega), ok_bind]
  rfl

end Computed

namespace Arithmetic

/-- An operation on the accumulator. -/
def checkedApply (op : Arithmetic) (a f v : UInt8) : Checked Computed :=
  match op with
  | .add => Computed.checkedSum a v false
  | .adc => Computed.checkedSum a v (Flags.has f Flags.carry)
  | .sub => Computed.checkedDifference a v false
  | .sbc => Computed.checkedDifference a v (Flags.has f Flags.carry)
  | .compare => do return ⟨a, (← Computed.checkedDifference a v false).flags⟩
  | op => return op.apply a f v

theorem checkedApply_eq (op : Arithmetic) (a f v : UInt8) :
    op.checkedApply a f v = .ok (op.apply a f v) := by
  cases op <;> simp only [checkedApply, Computed.checkedSum_eq, Computed.checkedDifference_eq] <;> rfl

end Arithmetic

namespace ComputedWord

/-- A sum of words, whose carry comes from a number of 32 bits. -/
def checkedSum (x y : UInt16) (f : UInt8) : Checked ComputedWord := do
  let half ← plus 16 (x.toNat % 0x1000) (y.toNat % 0x1000)
  let whole ← plus 32 x.toNat y.toNat
  return ⟨x + y, Flags.pack (Flags.has f Flags.zero) false (half > 0x0FFF) (whole > 0xFFFF)⟩

/-- A word moved by a signed distance. -/
def checkedMoved (x : UInt16) (distance : UInt8) : Checked ComputedWord := do
  let half ← plus 16 (x.toNat % 16) (distance.toNat % 16)
  let whole ← plus 16 (x.toNat % 256) distance.toNat
  return ⟨x + signExtend distance, Flags.pack false false (half > 15) (whole > 255)⟩

theorem checkedSum_eq (x y : UInt16) (f : UInt8) : checkedSum x y f = .ok (sum x y f) := by
  have first := x.toNat_lt
  have second := y.toNat_lt
  simp only [checkedSum, plus_ok (show x.toNat % 0x1000 + y.toNat % 0x1000 < 2 ^ 16 by omega),
    plus_ok (show x.toNat + y.toNat < 2 ^ 32 by omega), ok_bind]
  rfl

theorem checkedMoved_eq (x : UInt16) (distance : UInt8) :
    checkedMoved x distance = .ok (moved x distance) := by
  have second := distance.toNat_lt
  simp only [checkedMoved, plus_ok (show x.toNat % 16 + distance.toNat % 16 < 2 ^ 16 by omega),
    plus_ok (show x.toNat % 256 + distance.toNat < 2 ^ 16 by omega), ok_bind]
  rfl

end ComputedWord

/-- The bit is told by its mask. -/
def checkedBitFlags (v : UInt8) (n : Nat) (f : UInt8) : Checked UInt8 := do
  let mask ← bit n
  return Flags.pack (v &&& mask = 0) false true (Flags.has f Flags.carry)

theorem checkedBitFlags_eq {n : Nat} (few : n < 8) (v f : UInt8) :
    checkedBitFlags v n f = .ok (bitFlags v n f) := by
  rw [checkedBitFlags, bit_ok few, ok_bind, pure_eq, bitFlags]
  simp only [and_mask_eq_zero few, Bool.decide_eq_false]

namespace Core

/-- An operand, which may be a byte of memory. -/
def checkedOperand (s : Core) : Operand → Checked UInt8
  | .memory => s.bus.checkedRead s.cpu.hl
  | r => return s.operand r

/-- A write to memory. -/
def checkedStore (s : Core) (a : UInt16) (v : UInt8) : Checked Core := do
  return { s with bus := ← s.bus.checkedWrite a v }

/-- An operand that is set, which may be a byte of memory. -/
def checkedWithOperand (s : Core) (r : Operand) (v : UInt8) : Checked Core :=
  match r with
  | .memory => s.checkedStore s.cpu.hl v
  | r => return s.withOperand r v

def checkedWithComputed (s : Core) (r : Operand) (c : Computed) : Checked Core :=
  checkedWithOperand { s with cpu.f := c.flags } r c.value

def checkedImmediate (s : Core) : Checked UInt8 := s.bus.checkedRead s.cpu.pc

def checkedImmediateWord (s : Core) : Checked UInt16 := do
  let lower ← s.bus.checkedRead s.cpu.pc
  let upper ← s.bus.checkedRead (s.cpu.pc + 1)
  return word upper lower

/-- The two bytes of a word are written downwards. -/
def checkedPush (s : Core) (w : UInt16) : Checked Core := do
  let sp := s.cpu.sp
  let bus ← s.bus.checkedWrite (sp - 1) (high w)
  let bus ← bus.checkedWrite (sp - 2) (low w)
  return { cpu := { s.cpu with sp := sp - 2 }, bus }

/-- The two bytes of a word are read upwards. -/
def checkedTop (s : Core) : Checked UInt16 := do
  let lower ← s.bus.checkedRead s.cpu.sp
  let upper ← s.bus.checkedRead (s.cpu.sp + 1)
  return word upper lower

/-- A call pushes the address of what follows it. -/
def checkedCall (s : Core) (a : UInt16) : Checked Core := do
  return (← s.checkedPush s.cpu.pc).jump a

def checkedRet (s : Core) : Checked Core := do return s.drop.jump (← s.checkedTop)

variable {s : Core}

/-- Registers are always there, and memory is as large as its addresses. -/
theorem checkedOperand_eq (sized : s.bus.Sized) (r : Operand) :
    s.checkedOperand r = .ok (s.operand r) := by
  cases r with
  | memory => exact sized.checkedRead
  | _ => rfl

theorem checkedStore_eq (sized : s.bus.Sized) (a : UInt16) (v : UInt8) :
    s.checkedStore a v = .ok (s.store a v) := by
  rw [checkedStore, sized.checkedWrite]
  rfl

theorem checkedWithOperand_eq (sized : s.bus.Sized) (r : Operand) (v : UInt8) :
    s.checkedWithOperand r v = .ok (s.withOperand r v) := by
  cases r with
  | memory => exact checkedStore_eq sized _ v
  | _ => rfl

theorem checkedWithComputed_eq (sized : s.bus.Sized) (r : Operand) (c : Computed) :
    s.checkedWithComputed r c = .ok (s.withComputed r c) :=
  checkedWithOperand_eq (s := { s with cpu.f := c.flags }) sized r c.value

theorem checkedImmediate_eq (sized : s.bus.Sized) : s.checkedImmediate = .ok s.immediate :=
  sized.checkedRead

theorem checkedImmediateWord_eq (sized : s.bus.Sized) :
    s.checkedImmediateWord = .ok s.immediateWord := by
  rw [checkedImmediateWord, sized.checkedRead, ok_bind, sized.checkedRead]
  rfl

/-- Neither a push nor a pop crashes, wherever the stack pointer points. -/
theorem checkedPush_eq (sized : s.bus.Sized) (w : UInt16) : s.checkedPush w = .ok (s.push w) := by
  simp only [checkedPush, sized.checkedWrite, sized.write.checkedWrite, ok_bind]
  rfl

theorem checkedTop_eq (sized : s.bus.Sized) : s.checkedTop = .ok s.top := by
  rw [checkedTop, sized.checkedRead, ok_bind, sized.checkedRead]
  rfl

theorem checkedCall_eq (sized : s.bus.Sized) (a : UInt16) : s.checkedCall a = .ok (s.call a) := by
  rw [checkedCall, checkedPush_eq sized]
  rfl

theorem checkedRet_eq (sized : s.bus.Sized) : s.checkedRet = .ok s.ret := by
  rw [checkedRet, checkedTop_eq sized]
  rfl

end Core

namespace BitInstruction

def checkedRun (i : BitInstruction) (s : Core) : Checked Core := do
  match i with
  | shift op r => s.checkedWithComputed r (op.apply (← s.checkedOperand r) s.cpu.f)
  | test n r => return { s with cpu.f := ← checkedBitFlags (← s.checkedOperand r) n s.cpu.f }
  | clear n r => s.checkedWithOperand r ((← s.checkedOperand r) &&& ~~~(← bit n))
  | raise n r => s.checkedWithOperand r ((← s.checkedOperand r) ||| (← bit n))

/-- The number of a bit takes three bits of the second byte. -/
theorem checkedRun_eq {s : Core} (sized : s.bus.Sized) (b : UInt8) :
    (decode b).checkedRun s = .ok ((decode b).run s) := by
  have few : b.toNat / 8 % 8 < 8 := Nat.mod_lt _ (by decide)
  have operand := Core.checkedOperand_eq sized
  have put := Core.checkedWithOperand_eq sized
  unfold decode
  dsimp only
  split
  · simp only [checkedRun, operand, Core.checkedWithComputed_eq sized, ok_bind, run]
  · simp only [checkedRun, operand, checkedBitFlags_eq few, ok_bind, pure_eq, run]
  · simp only [checkedRun, operand, bit_ok few, put, ok_bind, run]
  · simp only [checkedRun, operand, bit_ok few, put, ok_bind, run]

end BitInstruction

namespace Instruction

/-- The second byte of a stop is fetched for nothing. -/
def checkedRun (i : Instruction) (s : Core) : Checked Core := do
  match i with
  | stop =>
    let _ ← s.checkedImmediate
    let s := (← s.checkedStore 0xFF04 0).skip 1
    return { s with cpu.stopped := true }
  | load dst src => s.checkedWithOperand dst (← s.checkedOperand src)
  | loadByte dst => (s.skip 1).checkedWithOperand dst (← s.checkedImmediate)
  | loadWord dst =>
    let w ← s.checkedImmediateWord
    let s := s.skip 2
    return { s with cpu := s.cpu.withPair dst w }
  | loadFrom p =>
    let v ← s.bus.checkedRead (s.cpu.pointer p)
    return { s with cpu := { s.cpu.movePointer p with a := v } }
  | storeTo p =>
    let s ← s.checkedStore (s.cpu.pointer p) s.cpu.a
    return { s with cpu := s.cpu.movePointer p }
  | loadHigh =>
    let v ← s.bus.checkedRead (highPage (← s.checkedImmediate))
    return (s.skip 1).withOperand .a v
  | storeHigh => return (← s.checkedStore (highPage (← s.checkedImmediate)) s.cpu.a).skip 1
  | loadHighC => return s.withOperand .a (← s.bus.checkedRead (highPage s.cpu.c))
  | storeHighC => s.checkedStore (highPage s.cpu.c) s.cpu.a
  | loadDirect =>
    let v ← s.bus.checkedRead (← s.checkedImmediateWord)
    return (s.skip 2).withOperand .a v
  | storeDirect => return (← s.checkedStore (← s.checkedImmediateWord) s.cpu.a).skip 2
  | storeSP =>
    let a ← s.checkedImmediateWord
    let sp := s.cpu.sp
    let s ← s.checkedStore a (low sp)
    let s ← s.checkedStore (a + 1) (high sp)
    return s.skip 2
  | loadHLSP =>
    let r ← ComputedWord.checkedMoved s.cpu.sp (← s.checkedImmediate)
    let s := s.skip 1
    return { s with cpu := { s.cpu.withHL r.value with f := r.flags } }
  | addSP =>
    let r ← ComputedWord.checkedMoved s.cpu.sp (← s.checkedImmediate)
    let s := s.skip 1
    return { s with cpu := { s.cpu with sp := r.value, f := r.flags } }
  | increment r => s.checkedWithComputed r (.increment (← s.checkedOperand r) s.cpu.f)
  | decrement r => s.checkedWithComputed r (.decrement (← s.checkedOperand r) s.cpu.f)
  | addHL p =>
    let r ← ComputedWord.checkedSum s.cpu.hl (s.cpu.pair p) s.cpu.f
    return { s with cpu := { s.cpu.withHL r.value with f := r.flags } }
  | arithmetic op src =>
    let r ← op.checkedApply s.cpu.a s.cpu.f (← s.checkedOperand src)
    return { s with cpu := s.cpu.accumulate r }
  | arithmeticByte op =>
    let r ← op.checkedApply s.cpu.a s.cpu.f (← s.checkedImmediate)
    let s := s.skip 1
    return { s with cpu := s.cpu.accumulate r }
  | pop p =>
    let w ← s.checkedTop
    let s := s.drop
    return { s with cpu := s.cpu.withStackPair p w }
  | push p => s.checkedPush (s.cpu.stackPair p)
  | jumpRelative when =>
    let distance := signExtend (← s.checkedImmediate)
    let s := s.skip 1
    return if Condition.allows s.cpu.f when then s.skip distance else s
  | jump when =>
    let a ← s.checkedImmediateWord
    return if Condition.allows s.cpu.f when then s.jump a else s.skip 2
  | call when =>
    let a ← s.checkedImmediateWord
    let s := s.skip 2
    if Condition.allows s.cpu.f when then s.checkedCall a else return s
  | ret when => if Condition.allows s.cpu.f when then s.checkedRet else return s
  | retInterrupt => return { (← s.checkedRet) with cpu.ime := true }
  | restart target => s.checkedCall target
  | prefixed =>
    let b ← s.checkedImmediate
    let _ ← place 0x100 b.toNat
    (BitInstruction.decode b).checkedRun (s.skip 1)
  | i => return i.run s

theorem checkedRun_eq {s : Core} (sized : s.bus.Sized) (i : Instruction) :
    i.checkedRun s = .ok (i.run s) := by
  have read (a : UInt16) := sized.checkedRead (a := a)
  have immediate := Core.checkedImmediate_eq sized
  have immediateWord := Core.checkedImmediateWord_eq sized
  have operand := Core.checkedOperand_eq sized
  have store := Core.checkedStore_eq sized
  unfold checkedRun run
  cases i with
  | stop | storeTo | storeHigh | storeHighC | storeDirect =>
    simp only [immediate, immediateWord, store, ok_bind, pure_eq]
  | load dst src =>
    simp only [operand, Core.checkedWithOperand_eq sized, ok_bind]
  | loadByte dst =>
    have put := Core.checkedWithOperand_eq (s := s.skip 1) sized
    simp only [immediate, put, ok_bind]
  | loadWord | jumpRelative | jump =>
    simp only [immediate, immediateWord, ok_bind, pure_eq]
  | loadFrom | loadHigh | loadHighC | loadDirect =>
    simp only [immediate, immediateWord, read, ok_bind, pure_eq]
  | storeSP =>
    have again := Core.checkedStore_eq (s := s.store s.immediateWord (low s.cpu.sp)) sized.write
    simp only [immediateWord, store, again, ok_bind, pure_eq]
  | loadHLSP | addSP =>
    simp only [immediate, ComputedWord.checkedMoved_eq, ok_bind, pure_eq]
  | increment r | decrement r =>
    simp only [operand, Core.checkedWithComputed_eq sized, ok_bind]
  | addHL p => simp only [ComputedWord.checkedSum_eq, ok_bind, pure_eq]
  | arithmetic op src | arithmeticByte op =>
    simp only [operand, immediate, Arithmetic.checkedApply_eq, ok_bind, pure_eq]
  | pop p => simp only [Core.checkedTop_eq sized, ok_bind, pure_eq]
  | push p => exact Core.checkedPush_eq sized _
  | call when =>
    have enter := Core.checkedCall_eq (s := s.skip 2) sized s.immediateWord
    simp only [immediateWord, ok_bind, enter, pure_eq]
    split_ifs <;> rfl
  | ret when =>
    simp only [Core.checkedRet_eq sized, pure_eq]
    split_ifs <;> rfl
  | retInterrupt => simp only [Core.checkedRet_eq sized, ok_bind, pure_eq]
  | restart target => exact Core.checkedCall_eq sized target
  | prefixed =>
    have second := BitInstruction.checkedRun_eq (s := s.skip 1) sized s.immediate
    simp only [immediate, place_ok (UInt8.toNat_lt s.immediate), second, ok_bind]
  | _ => rfl

end Instruction

namespace Interrupts

/-- The lowest bit, if there is one. -/
def checkedFirst? (s : Interrupts) : Checked (Option Interrupts) := do
  match s.lowest? with
  | none => return none
  | some i => return some ⟨← bit i⟩

/-- The handlers lie eight bytes apart. -/
def checkedHandler (s : Interrupts) : Checked UInt16 := do
  let zeros := match s.lowest? with | some i => i.val | none => 8
  return UInt16.ofNat (← plus 16 0x40 (← times 16 8 zeros))

theorem checkedFirst?_eq (s : Interrupts) : s.checkedFirst? = .ok s.first? := by
  unfold checkedFirst? first?
  cases s.lowest? with
  | none => rfl
  | some i =>
    have shifted : bit i.val = .ok (1 <<< UInt8.ofNat i) := bit_ok i.isLt
    simp only [shifted, ok_bind, pure_eq, Option.map_some]

theorem checkedHandler_eq (s : Interrupts) : s.checkedHandler = .ok s.handler := by
  unfold checkedHandler handler
  cases s.lowest? with
  | none => decide
  | some i =>
    revert i
    decide

end Interrupts

namespace Core

/-- The request is withdrawn and its handler called. -/
def checkedDispatch (i : Interrupts) (s : Core) : Checked Core := do
  let s ← { s with bus.requested := s.bus.requested.diff i }.checkedCall (← i.checkedHandler)
  return { s with cpu := { s.cpu with ime := false, imeNext := false } }

/-- The first pending request ends a halt, and is served if the processor lets it. -/
def checkedServe (s : Core) : Checked (Nat × Core) := do
  match ← s.bus.pending.checkedFirst? with
  | none => return (0, s)
  | some i =>
    let s := { s with cpu.halted := false }
    if s.cpu.ime then return (20, ← s.checkedDispatch i) else return (0, s)

/-- The opcode is looked up in a table. -/
def checkedExecute (s : Core) : Checked (Except Fault Nat × Core) := do
  let opcode ← s.checkedImmediate
  let address := s.cpu.pc
  let announced := s.cpu.imeNext
  let s := s.fetched
  let _ ← place 0x100 opcode.toNat
  match Instruction.decode opcode with
  | none =>
    let fault := { opcode, address }
    return (.error fault, { s with cpu.fault := some fault })
  | some i =>
    let cost := i.cost s
    return (.ok cost, (← i.checkedRun s).settle announced)

/-- The processor waits or executes. -/
def checkedSlot (s : Core) : Checked (Except Fault Nat × Core) := do
  if s.cpu.stopped then
    if s.bus.requested.contains .joypad then return (.ok 4, { s with cpu.stopped := false })
    else return (.ok 4, s)
  else if s.cpu.halted then return (.ok 4, s)
  else s.checkedExecute

/-- A step, with the sum of its cycles and that of all cycles. -/
def checkedStep (s : Core) : Checked (Except Fault Nat × Core) := do
  match s.cpu.fault with
  | some fault => return (.error fault, s)
  | none =>
    match ← s.checkedSlot with
    | (.error fault, s) => return (.error fault, s)
    | (.ok n, s) =>
      let served ← if s.cpu.stopped then pure (0, s) else s.checkedServe
      let elapsed ← plus 32 n served.1
      let cycles ← plus 64 served.2.cpu.cycles elapsed
      return (.ok elapsed, { served.2 with cpu.cycles := cycles })

variable {s : Core}

theorem checkedDispatch_eq (sized : s.bus.Sized) (i : Interrupts) :
    s.checkedDispatch i = .ok (s.dispatch i) := by
  have enter := checkedCall_eq (s := { s with bus.requested := s.bus.requested.diff i }) sized i.handler
  simp only [checkedDispatch, Interrupts.checkedHandler_eq, ok_bind, enter, pure_eq, dispatch]

theorem checkedServe_eq (sized : s.bus.Sized) : s.checkedServe = .ok s.serve := by
  unfold checkedServe serve
  rw [Interrupts.checkedFirst?_eq, ok_bind]
  cases s.bus.pending.first? with
  | none => rfl
  | some i =>
    have enter := checkedDispatch_eq (s := { s with cpu.halted := false }) sized i
    simp only [enter, ok_bind, pure_eq]
    split_ifs <;> rfl

/-- Every opcode has its entry in the table. -/
theorem checkedExecute_eq (sized : s.bus.Sized) : s.checkedExecute = .ok s.execute := by
  have same : s.fetched.bus.Sized := s.fetched_bus ▸ sized
  unfold checkedExecute execute
  rw [checkedImmediate_eq sized, ok_bind, place_ok (UInt8.toNat_lt s.immediate), ok_bind]
  dsimp only
  cases Instruction.decode s.immediate with
  | none => rfl
  | some i =>
    dsimp only
    rw [Instruction.checkedRun_eq same, ok_bind, pure_eq]

theorem checkedSlot_eq (sized : s.bus.Sized) : s.checkedSlot = .ok s.slot := by
  unfold checkedSlot slot
  rw [checkedExecute_eq sized]
  split_ifs <;> rfl

theorem serve_few (s : Core) : s.serve.1 ≤ 20 := by
  unfold serve
  split
  · exact Nat.zero_le _
  · dsimp only
    split_ifs
    · exact Nat.le_refl _
    · exact Nat.zero_le _

/-- Whatever a program makes the processor do, its step names only places that exist, and its sums
fit. Only the clock needs a bound. -/
theorem checkedStep_eq (sized : s.bus.Sized) (timely : s.step.2.cpu.cycles < 2 ^ 64) :
    s.checkedStep = .ok s.step := by
  unfold checkedStep
  unfold step at timely ⊢
  generalize s.cpu.fault = locked at timely ⊢
  cases locked with
  | some fault => rfl
  | none =>
    rw [checkedSlot_eq sized, ok_bind]
    have slot := s.slotted
    generalize s.slot = result at slot timely
    obtain ⟨outcome, t⟩ := result
    cases outcome with
    | error fault => rfl
    | ok n =>
      have after : t.bus.Sized := by
        have written : t.bus = s.bus.writeAll s.slotWrites := slot.bus_eq
        rw [written]
        exact (Bus.leads_writeAll _ _).sized sized
      have few : n ≤ 24 := slot.cycles.2.2.2
      have served := t.serve_few
      dsimp only at timely ⊢
      rw [checkedServe_eq after]
      split_ifs at timely ⊢
      · rw [pure_eq, ok_bind, plus_ok (by omega), ok_bind, plus_ok timely]
        rfl
      · rw [ok_bind, plus_ok (by omega), ok_bind, plus_ok timely]
        rfl

end Core

end DotMatrix
