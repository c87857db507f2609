import DotMatrix.Cpu.Basic
import DotMatrix.Cpu.Decode

namespace DotMatrix

namespace Cpu

def pair (s : Cpu) : Pair → UInt16
  | .bc => s.bc
  | .de => s.de
  | .hl => s.hl
  | .sp => s.sp

def withPair (s : Cpu) (p : Pair) (w : UInt16) : Cpu :=
  match p with
  | .bc => s.withBC w
  | .de => s.withDE w
  | .hl => s.withHL w
  | .sp => { s with sp := w }

def stackPair (s : Cpu) : StackPair → UInt16
  | .bc => s.bc
  | .de => s.de
  | .hl => s.hl
  | .af => s.af

def withStackPair (s : Cpu) (p : StackPair) (w : UInt16) : Cpu :=
  match p with
  | .bc => s.withBC w
  | .de => s.withDE w
  | .hl => s.withHL w
  | .af => s.withAF w

def pointer (s : Cpu) : Pointer → UInt16
  | .bc => s.bc
  | .de => s.de
  | .hlUp | .hlDown => s.hl

/-- Moves HL past the byte that a pointer has named. -/
def movePointer (s : Cpu) : Pointer → Cpu
  | .bc | .de => s
  | .hlUp => s.withHL (s.hl + 1)
  | .hlDown => s.withHL (s.hl - 1)

/-- The accumulator and the flags take a result. -/
def accumulate (s : Cpu) (r : Computed) : Cpu := { s with a := r.value, f := r.flags }

end Cpu

namespace Condition

def holds (f : UInt8) : Condition → Bool
  | notZero => !Flags.has f Flags.zero
  | zero => Flags.has f Flags.zero
  | notCarry => !Flags.has f Flags.carry
  | carry => Flags.has f Flags.carry

def allows (f : UInt8) : Option Condition → Bool
  | none => true
  | some c => c.holds f

end Condition

namespace Core

def operand (s : Core) : Operand → UInt8
  | .b => s.cpu.b
  | .c => s.cpu.c
  | .d => s.cpu.d
  | .e => s.cpu.e
  | .h => s.cpu.h
  | .l => s.cpu.l
  | .memory => s.bus.read s.cpu.hl
  | .a => s.cpu.a

/-- A byte goes out on the bus. -/
def store (s : Core) (a : UInt16) (v : UInt8) : Core := { s with bus := s.bus.write a v }

def withOperand (s : Core) (r : Operand) (v : UInt8) : Core :=
  match r with
  | .b => { s with cpu.b := v }
  | .c => { s with cpu.c := v }
  | .d => { s with cpu.d := v }
  | .e => { s with cpu.e := v }
  | .h => { s with cpu.h := v }
  | .l => { s with cpu.l := v }
  | .memory => s.store s.cpu.hl v
  | .a => { s with cpu.a := v }

/-- An operand takes a result and the flags with it. -/
def withComputed (s : Core) (r : Operand) (c : Computed) : Core :=
  withOperand { s with cpu.f := c.flags } r c.value

/-- The byte that comes next. -/
def immediate (s : Core) : UInt8 := s.bus.read s.cpu.pc

def immediateWord (s : Core) : UInt16 := word (s.bus.read (s.cpu.pc + 1)) (s.bus.read s.cpu.pc)

def jump (s : Core) (a : UInt16) : Core := { s with cpu.pc := a }

def skip (s : Core) (n : UInt16) : Core := s.jump (s.cpu.pc + n)

/-- The return address goes on the stack. -/
def call (s : Core) (a : UInt16) : Core := (s.push s.cpu.pc).jump a

def ret (s : Core) : Core := s.drop.jump s.top

end Core

/-- An address in the topmost page. -/
def highPage (v : UInt8) : UInt16 := word 0xFF v

def BitInstruction.run (i : BitInstruction) (s : Core) : Core :=
  match i with
  | shift op r => s.withComputed r (op.apply (s.operand r) s.cpu.f)
  | test bit r => { s with cpu.f := bitFlags (s.operand r) bit s.cpu.f }
  | clear bit r => s.withOperand r (s.operand r &&& ~~~(1 <<< UInt8.ofNat bit))
  | raise bit r => s.withOperand r (s.operand r ||| 1 <<< UInt8.ofNat bit)

namespace Instruction

/-- What an instruction does once its opcode has been fetched. -/
def run (i : Instruction) (s : Core) : Core :=
  match i with
  | nop => s
  | stop =>
    let s := (s.store 0xFF04 0).skip 1
    { s with cpu.stopped := true }
  | halt =>
    if !s.cpu.ime && !s.bus.pending.isEmpty then { s with cpu.doubleFetch := true }
    else { s with cpu.halted := true }
  | disableInterrupts => { s with cpu := { s.cpu with ime := false, imeNext := false } }
  | enableInterrupts => if s.cpu.ime then s else { s with cpu.imeNext := true }
  | decimalAdjust => { s with cpu := s.cpu.accumulate (.decimalAdjust s.cpu.a s.cpu.f) }
  | complement =>
    let f := s.cpu.f ||| Flags.subtract ||| Flags.half
    { s with cpu := s.cpu.accumulate ⟨~~~s.cpu.a, f⟩ }
  | setCarry => { s with cpu.f := (s.cpu.f &&& Flags.zero) ||| Flags.carry }
  | flipCarry => { s with cpu.f := (s.cpu.f &&& (Flags.zero ||| Flags.carry)) ^^^ Flags.carry }
  | rotate op =>
    let r := op.apply s.cpu.a s.cpu.f
    { s with cpu := s.cpu.accumulate { r with flags := r.flags &&& ~~~Flags.zero } }
  | load dst src => s.withOperand dst (s.operand src)
  | loadByte dst => (s.skip 1).withOperand dst s.immediate
  | loadWord dst =>
    let w := s.immediateWord
    let s := s.skip 2
    { s with cpu := s.cpu.withPair dst w }
  | loadFrom p =>
    let v := s.bus.read (s.cpu.pointer p)
    { s with cpu := { s.cpu.movePointer p with a := v } }
  | storeTo p =>
    let s := s.store (s.cpu.pointer p) s.cpu.a
    { s with cpu := s.cpu.movePointer p }
  | loadHigh =>
    let v := s.bus.read (highPage s.immediate)
    (s.skip 1).withOperand .a v
  | storeHigh => (s.store (highPage s.immediate) s.cpu.a).skip 1
  | loadHighC => s.withOperand .a (s.bus.read (highPage s.cpu.c))
  | storeHighC => s.store (highPage s.cpu.c) s.cpu.a
  | loadDirect =>
    let v := s.bus.read s.immediateWord
    (s.skip 2).withOperand .a v
  | storeDirect => (s.store s.immediateWord s.cpu.a).skip 2
  | storeSP =>
    let a := s.immediateWord
    let sp := s.cpu.sp
    ((s.store a (low sp)).store (a + 1) (high sp)).skip 2
  | loadSPHL => { s with cpu.sp := s.cpu.hl }
  | loadHLSP =>
    let r := ComputedWord.moved s.cpu.sp s.immediate
    let s := s.skip 1
    { s with cpu := { s.cpu.withHL r.value with f := r.flags } }
  | addSP =>
    let r := ComputedWord.moved s.cpu.sp s.immediate
    let s := s.skip 1
    { s with cpu := { s.cpu with sp := r.value, f := r.flags } }
  | increment r => s.withComputed r (.increment (s.operand r) s.cpu.f)
  | decrement r => s.withComputed r (.decrement (s.operand r) s.cpu.f)
  | incrementPair p => { s with cpu := s.cpu.withPair p (s.cpu.pair p + 1) }
  | decrementPair p => { s with cpu := s.cpu.withPair p (s.cpu.pair p - 1) }
  | addHL p =>
    let r := ComputedWord.sum s.cpu.hl (s.cpu.pair p) s.cpu.f
    { s with cpu := { s.cpu.withHL r.value with f := r.flags } }
  | arithmetic op src =>
    { s with cpu := s.cpu.accumulate (op.apply s.cpu.a s.cpu.f (s.operand src)) }
  | arithmeticByte op =>
    let r := op.apply s.cpu.a s.cpu.f s.immediate
    let s := s.skip 1
    { s with cpu := s.cpu.accumulate r }
  | pop p =>
    let w := s.top
    let s := s.drop
    { s with cpu := s.cpu.withStackPair p w }
  | push p => s.push (s.cpu.stackPair p)
  | jumpRelative when =>
    let distance := signExtend s.immediate
    let s := s.skip 1
    if Condition.allows s.cpu.f when then s.skip distance else s
  | jump when =>
    let a := s.immediateWord
    if Condition.allows s.cpu.f when then s.jump a else s.skip 2
  | jumpHL => s.jump s.cpu.hl
  | call when =>
    let a := s.immediateWord
    let s := s.skip 2
    if Condition.allows s.cpu.f when then s.call a else s
  | ret when => if Condition.allows s.cpu.f when then s.ret else s
  | retInterrupt => { s.ret with cpu.ime := true }
  | restart target => s.call target
  | prefixed => (BitInstruction.decode s.immediate).run (s.skip 1)

end Instruction

end DotMatrix
