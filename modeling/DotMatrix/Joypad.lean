import DotMatrix.Bus.Basic

namespace DotMatrix

/-- The eight buttons and the four lines that they pull down. -/
structure Joypad where
  /-- Directions in the lower half, actions in the upper. -/
  held : UInt8
  /-- The lines as they were last seen; a set bit is a line that is high. -/
  lines : UInt8
  deriving DecidableEq

namespace Joypad

def released : Joypad := ⟨0, 0x0F⟩

def press (s : Joypad) (buttons : UInt8) : Joypad := { s with held := s.held ||| buttons }

def release (s : Joypad) (buttons : UInt8) : Joypad :=
  { s with held := s.held &&& ~~~buttons }

/-- The lines while the program selects groups by clearing bit 4 for the directions and bit 5 for
the actions. -/
def linesFor (s : Joypad) (select : UInt8) : UInt8 :=
  let directions := if select &&& 0x10 = 0 then s.held &&& 0x0F else 0
  let actions := if select &&& 0x20 = 0 then s.held >>> 4 else 0
  0x0F &&& ~~~(directions ||| actions)

/-- Sets the lines. One that falls requests the interrupt. -/
def update (s : Joypad) (bus : Bus) : Joypad × Bus :=
  let select := bus.registers.visible .p1 &&& 0x30
  let lines := s.linesFor select
  let fell := s.lines &&& ~~~lines != 0
  let bus := bus.store .p1 (select ||| lines)
  ({ s with lines }, if fell then bus.request .joypad else bus)

end Joypad

end DotMatrix
