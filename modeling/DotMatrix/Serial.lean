import DotMatrix.Bus.Basic

namespace DotMatrix

/-- The unit that shifts bytes out on its own clock. Nothing is connected, so it receives ones. -/
structure Serial where
  /-- The bytes that went out. -/
  sent : Array UInt8
  /-- Cycles left of the byte on its way. -/
  left : Option Nat
  deriving DecidableEq

namespace Serial

def idle : Serial := ⟨#[], none⟩

/-- The time of one byte. -/
def byteCycles : Nat := 4096

/-- A transfer runs while bits 7 and 0 of its control register are set. When it ends, bit 7 goes. -/
def step (n : Nat) (s : Serial) (bus : Bus) : Serial × Bus :=
  let control := bus.registers.visible .sc
  if control &&& 0x81 = 0x81 then
    let left := s.left.getD byteCycles
    if n < left then ({ s with left := some (left - n) }, bus)
    else
      let byte := bus.registers.visible .sb
      let bus := (bus.store .sb 0xFF).store .sc (control &&& 0x7F)
      ({ sent := s.sent.push byte, left := none }, bus.request .serial)
  else ({ s with left := none }, bus)

/-- Forgets the bytes that went out. -/
def drain (s : Serial) : Serial := { s with sent := #[] }

end Serial

end DotMatrix
