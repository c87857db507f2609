import DotMatrix.Text.Hex
import DotMatrix.Revision
import DotMatrix.Bus.Basic

namespace DotMatrix

/-- An opcode that means nothing, and where it was fetched. -/
structure Fault where
  opcode : UInt8
  address : UInt16
  deriving DecidableEq

def Fault.message (e : Fault) : String :=
  "unimplemented opcode " ++ Text.hexByte e.opcode ++ " at PC=" ++ Text.hexWord e.address

structure Cpu where
  a : UInt8
  /-- Four flags in the upper half. -/
  f : UInt8
  b : UInt8
  c : UInt8
  d : UInt8
  e : UInt8
  h : UInt8
  l : UInt8
  sp : UInt16
  pc : UInt16
  /-- Those that have passed, without a bound. A count of 64 bits would last for more than a hundred
  thousand years. -/
  cycles : Nat
  /-- Interrupts are served. -/
  ime : Bool
  /-- They will be after the next instruction. -/
  imeNext : Bool
  halted : Bool
  stopped : Bool
  /-- The next opcode is fetched without moving on. -/
  doubleFetch : Bool
  fault : Option Fault
  deriving DecidableEq

namespace Cpu

def af (s : Cpu) : UInt16 := word s.a s.f
def bc (s : Cpu) : UInt16 := word s.b s.c
def de (s : Cpu) : UInt16 := word s.d s.e
def hl (s : Cpu) : UInt16 := word s.h s.l

/-- The lower half of F has no bits. -/
def withAF (s : Cpu) (w : UInt16) : Cpu := { s with a := high w, f := low w &&& 0xF0 }
def withBC (s : Cpu) (w : UInt16) : Cpu := { s with b := high w, c := low w }
def withDE (s : Cpu) (w : UInt16) : Cpu := { s with d := high w, e := low w }
def withHL (s : Cpu) (w : UInt16) : Cpu := { s with h := high w, l := low w }

def blank : Cpu :=
  ⟨0, 0, 0, 0, 0, 0, 0, 0, 0xFFFE, 0x0100, 0, false, false, false, false, false, none⟩

/-- The registers when the first cartridge instruction is fetched. -/
def boot : Revision → Cpu
  | .rev0 => (((blank.withAF 0x0100).withBC 0xFF13).withDE 0x00C1).withHL 0x8403
  | _ => (((blank.withAF 0x01B0).withBC 0x0013).withDE 0x00D8).withHL 0x014D

end Cpu

/-- The processor together with all that it can reach. -/
structure Core where
  cpu : Cpu
  bus : Bus

namespace Core

def push (s : Core) (w : UInt16) : Core :=
  let sp := s.cpu.sp
  { cpu := { s.cpu with sp := sp - 2 }
    bus := (s.bus.write (sp - 1) (high w)).write (sp - 2) (low w) }

/-- The word on the stack. -/
def top (s : Core) : UInt16 := word (s.bus.read (s.cpu.sp + 1)) (s.bus.read s.cpu.sp)

def drop (s : Core) : Core := { s with cpu := { s.cpu with sp := s.cpu.sp + 2 } }

end Core

end DotMatrix
