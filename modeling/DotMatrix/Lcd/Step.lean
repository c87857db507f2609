import DotMatrix.Bus.Basic
import DotMatrix.Lcd.Basic

namespace DotMatrix

/-- The LCD at work on the bus. -/
structure Panel where
  lcd : Lcd
  bus : Bus
  /-- A frame has been completed. -/
  finished : Bool

namespace Panel

/-- Compares the line with the one asked for. -/
def compare (p : Panel) : Panel :=
  { p with lcd.coincidence := UInt8.ofNat p.lcd.line == p.bus.registers.stored .lyc }

/-- Shows line, mode and coincidence in their registers. -/
def publish (p : Panel) : Panel :=
  let kept := p.bus.registers.stored .stat &&& 0x78
  let coincidence : UInt8 := if p.lcd.coincidence then 0x04 else 0
  let status := kept ||| coincidence ||| p.lcd.mode.code
  { p with bus := (p.bus.store .ly (UInt8.ofNat p.lcd.line)).store .stat status }

/-- Whether a status source that the program asks for is active. -/
def statusSource (p : Panel) : Bool :=
  let asked := (p.bus.registers.stored .stat).toNat
  (p.lcd.coincidence && asked.testBit 6) ||
    match p.lcd.mode with
    | .rest => asked.testBit 3
    | .blank => asked.testBit 4
    | .scan => asked.testBit 5
    | .transfer => false

/-- The status interrupt comes when the first source becomes active. -/
def raiseStatus (p : Panel) : Panel :=
  let active := p.statusSource
  let rises := active && !p.lcd.statusLine
  let p := { p with lcd.statusLine := active }
  if rises then { p with bus := p.bus.request .stat } else p

def switchOff (p : Panel) : Panel :=
  publish { p with lcd := { p.lcd with
    on := false, mode := .rest, line := 0, dot := 0, windowLine := 0, statusLine := false } }

def switchOn (p : Panel) : Panel :=
  compare { p with lcd := { p.lcd with
    on := true, mode := .scan, dot := 0, latch := .ofRegisters p.bus.registers } }

/-- The sprites of the line are chosen. -/
def endScan (p : Panel) : Panel :=
  let tall := p.lcd.latch.tallSprites
  compare { p with lcd := { p.lcd with
    sprites := Sprite.scan p.bus.oam p.lcd.line tall, tall, mode := .transfer } }

/-- The line is drawn. -/
def endTransfer (p : Panel) : Panel :=
  { p with lcd := { p.lcd.draw p.bus.vram with mode := .rest } }

/-- Below the last line of the screen the frame is complete and goes to the front. -/
def endRest (p : Panel) : Panel :=
  let line := p.lcd.line + 1
  if line = 144 then
    let p := compare { p with lcd := { p.lcd with line, mode := .blank } }
    { lcd := { p.lcd with front := p.lcd.back, back := p.lcd.front, frames := p.lcd.frames + 1 }
      bus := p.bus.request .vblank
      finished := true }
  else { p with lcd := { p.lcd with line, mode := .scan } }

/-- After the last line the next frame begins. Its first line is not compared here. -/
def endBlankLine (p : Panel) : Panel :=
  if p.lcd.line = 153 then
    { p with lcd := { p.lcd with line := 0, windowLine := 0, mode := .scan } }
  else compare { p with lcd.line := p.lcd.line + 1 }

def endMode (p : Panel) : Panel :=
  match p.lcd.mode with
  | .scan => p.endScan
  | .transfer => p.endTransfer
  | .rest => p.endRest
  | .blank => p.endBlankLine

/-- Moves on by a few dots, fewer than any mode has. -/
def advance (n : Nat) (p : Panel) : Panel :=
  let dot := p.lcd.dot + n
  if dot < p.lcd.mode.length then { p with lcd.dot := dot }
  else endMode { p with lcd := { p.lcd with
    dot := dot - p.lcd.mode.length, latch := .ofRegisters p.bus.registers } }

/-- Whether the program has switched the LCD on. -/
def wanted (p : Panel) : Bool := (p.bus.registers.stored .lcdc).toNat.testBit 7

/-- What happens in at most four dots. -/
def slice (n : Nat) (p : Panel) : Panel :=
  if p.wanted then
    ((if p.lcd.on then p else p.switchOn).advance n).publish.raiseStatus
  else if p.lcd.on then p.switchOff
  else p

def slices : Nat → Panel → Panel
  | 0, p => p
  | k + 1, p => slices k (p.slice 4)

/-- Four dots at a time, then what is left. -/
def step (n : Nat) (p : Panel) : Panel :=
  let p := p.slices (n / 4)
  if n % 4 = 0 then p else p.slice (n % 4)

end Panel

/-- Runs the LCD for `n` dots. -/
def Lcd.step (n : Nat) (lcd : Lcd) (bus : Bus) : Panel := Panel.step n ⟨lcd, bus, false⟩

end DotMatrix
