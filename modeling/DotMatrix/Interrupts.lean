namespace DotMatrix

/-- A set of interrupt lines, one bit each. Lower lines go first. -/
structure Interrupts where
  bits : UInt8
  deriving DecidableEq

namespace Interrupts

def empty : Interrupts := ⟨0⟩
def vblank : Interrupts := ⟨0x01⟩
def stat : Interrupts := ⟨0x02⟩
def timer : Interrupts := ⟨0x04⟩
def serial : Interrupts := ⟨0x08⟩
def joypad : Interrupts := ⟨0x10⟩

/-- The five lines that exist, out of any eight bits. -/
def ofByte (b : UInt8) : Interrupts := ⟨b &&& 0x1F⟩

def union (s t : Interrupts) : Interrupts := ⟨s.bits ||| t.bits⟩
def inter (s t : Interrupts) : Interrupts := ⟨s.bits &&& t.bits⟩
def diff (s t : Interrupts) : Interrupts := ⟨s.bits &&& ~~~t.bits⟩

def isEmpty (s : Interrupts) : Bool := s.bits == 0

/-- Whether every line of `t` is in `s`. -/
def contains (s t : Interrupts) : Bool := s.bits &&& t.bits == t.bits

/-- The least line in the set. -/
def lowest? (s : Interrupts) : Option (Fin 8) :=
  (List.finRange 8).find? fun i => s.bits.toNat.testBit i

/-- The line that is served first, as a set. -/
def first? (s : Interrupts) : Option Interrupts :=
  s.lowest?.map fun i : Fin 8 => ⟨1 <<< UInt8.ofNat i⟩

/-- The address of the handler: eight bytes a line from 0x40 on. The empty set comes after
the last line. -/
def handler (s : Interrupts) : UInt16 :=
  0x40 + 8 * (match s.lowest? with | some i => UInt16.ofNat i | none => 8)

example : (joypad.union (timer.union stat)).first? = some stat := by decide
example : empty.handler = 0x80 := by decide

end Interrupts

end DotMatrix
