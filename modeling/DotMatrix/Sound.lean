import DotMatrix.Word
import DotMatrix.Bus.Registers

namespace DotMatrix.Sound

inductive Channel
  | square1 | square2 | wave | noise
  deriving DecidableEq

/-- What a synthesiser is told. -/
inductive Event
  | power (on : Bool)
  | sweep (value : UInt8)
  | length (channel : Channel) (value : UInt8)
  | envelope (channel : Channel) (value : UInt8)
  | frequency (channel : Channel) (value : UInt16)
  | trigger (channel : Channel)
  deriving DecidableEq

/-- The first of a channel's five registers. -/
def Channel.base : Channel → Register
  | .square1 => 0x10
  | .square2 => 0x15
  | .wave => 0x1A
  | .noise => 0x1F

/-- The channel of a register and its place among the five. -/
def Channel.at? (r : Register) : Option (Channel × Nat) :=
  [square1, square2, wave, noise].findSome? fun c =>
    if c.base ≤ r ∧ r < c.base + 5 then some (c, r - c.base) else none

/-- The eleven bits that the last two registers of a channel hold. -/
def Channel.period (c : Channel) (file : Registers) : UInt16 :=
  word (file[c.base + 4] &&& 0x07) file[c.base + 3]

/-- The events of a write to the register at `place`, which `file` already holds. Noise has no
period: its fourth register stands for itself. -/
def Channel.events (c : Channel) (file : Registers) (place : Nat) (v : UInt8) : List Event :=
  match place with
  | 1 => [.length c (if c = .wave then v else v &&& 0x3F)]
  | 2 => [.envelope c v]
  | 3 => [.frequency c (if c = .noise then v.toUInt16 else c.period file)]
  | 4 => (if c = .noise then [] else [.frequency c (c.period file)]) ++
      (if 0x80 ≤ v then [.trigger c] else [])
  | _ => []

/-- The events of a program's write of `v` to `r`, given the file after it. -/
def events (file : Registers) (r : Register) (v : UInt8) : List Event :=
  if r = .nr52 then [.power (0x80 ≤ v)]
  else if r = .nr10 then [.sweep v]
  else match Channel.at? r with
    | some (c, place) => c.events file place v
    | none => []

example : Channel.at? 0x19 = some (.square2, 4) := by decide
example : Channel.at? 0x24 = none := by decide

end DotMatrix.Sound
