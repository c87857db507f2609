import DotMatrix.Cartridge.Storage
import DotMatrix.Cpu.Step
import DotMatrix.Lcd.Step
import DotMatrix.Serial
import DotMatrix.Joypad

namespace DotMatrix

/-- The whole handheld. -/
structure Machine where
  cpu : Cpu
  bus : Bus
  lcd : Lcd
  serial : Serial
  joypad : Joypad
  revision : Revision
  /-- The frames shown since a display was first attached, the first one first. -/
  display : Option (Array Frame)

namespace Machine

def boot (revision : Revision) (cartridge : Option Cartridge) : Machine where
  cpu := .boot revision
  bus := .boot revision cartridge
  lcd := .initial
  serial := .idle
  joypad := .released
  revision := revision
  display := none

def load (disk : Disk) (name : String) : Except LoadError Machine :=
  (Cartridge.load disk name).map fun c => boot .standard (some c)

/-- Starts again with the same cartridge. What the player holds and watches stays. -/
def reset (m : Machine) : Machine :=
  { m with
    cpu := .boot m.revision
    bus := m.bus.reset m.revision
    lcd := .initial
    serial := .idle }

/-- Frames are shown from now on. Those that another display was shown before stay on record. -/
def attachDisplay (m : Machine) : Machine := { m with display := some (m.display.getD #[]) }

/-- Forgets the frames shown so far. -/
def drainDisplay (m : Machine) : Machine := { m with display := m.display.map fun _ => #[] }

/-- Everything but the processor moves on by the cycles that it took. -/
def follow (n : Nat) (m : Machine) : Machine :=
  let shown := m.lcd.step n m.bus
  let display := if shown.finished then m.display.map (·.push shown.lcd.front) else m.display
  let sent := m.serial.step n (shown.bus.stepTimer n)
  let held := m.joypad.update sent.2
  { m with lcd := shown.lcd, serial := sent.1, joypad := held.1, bus := held.2, display }

/-- One step of the processor, which everything else follows. -/
def step (m : Machine) : Except Fault Nat × Machine :=
  match Core.step ⟨m.cpu, m.bus⟩ with
  | (.error fault, ⟨cpu, bus⟩) => (.error fault, { m with cpu, bus })
  | (.ok n, ⟨cpu, bus⟩) => (.ok n, follow n { m with cpu, bus })

/-- At most `fuel` steps, until `cycles` are over. The number is the cycles run, `elapsed` of them
before. -/
def runFor (cycles : Nat) : Nat → Nat → Machine → Except Fault Nat × Machine
  | 0, elapsed, m => (.ok elapsed, m)
  | fuel + 1, elapsed, m =>
    if elapsed < cycles then
      match m.step with
      | (.error fault, m) => (.error fault, m)
      | (.ok n, m) => runFor cycles fuel (elapsed + n) m
    else (.ok elapsed, m)

/-- Steps until at least `cycles` have passed. Every step takes some. -/
def runAtLeast (cycles : Nat) (m : Machine) : Except Fault Nat × Machine := runFor cycles cycles 0 m

/-- The cycles of a frame of 154 lines. -/
def frameCycles : Nat := 70224

/-- At most `fuel` steps, until a frame later than number `start` is there, or the LCD is found off
after a frame's time. -/
def runUntilFrame (start : Nat) : Nat → Nat → Machine → Except Fault Unit × Machine
  | 0, _, m => (.ok (), m)
  | fuel + 1, elapsed, m =>
    if m.lcd.frames = start then
      match m.step with
      | (.error fault, m) => (.error fault, m)
      | (.ok n, m) =>
        if !m.lcd.on && frameCycles ≤ elapsed + n then (.ok (), m)
        else runUntilFrame start fuel (elapsed + n) m
    else (.ok (), m)

/-- Steps until a frame is complete, or for as long as one takes while the LCD is off. Two frames'
time is enough for either, and no step takes less than four cycles. -/
def runToFrame (m : Machine) : Except Fault Unit × Machine :=
  runUntilFrame m.lcd.frames (2 * (frameCycles + 44) / 4) 0 m

/-- Writes the RAM of the cartridge to its file. -/
def save? (m : Machine) (disk : Disk) : Option Disk :=
  match m.bus.cartridge with
  | some c => c.save? disk
  | none => some disk

end Machine

end DotMatrix
