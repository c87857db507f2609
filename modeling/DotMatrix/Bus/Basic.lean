import DotMatrix.Bus.Address
import DotMatrix.Cartridge.Basic
import DotMatrix.Interrupts
import DotMatrix.Sound

namespace DotMatrix

/-- The memories and registers that share the address space. -/
structure Bus where
  cartridge : Option Cartridge
  vram : Vector UInt8 0x2000
  wram : Vector UInt8 0x2000
  oam : Vector UInt8 0xA0
  hram : Vector UInt8 0x7F
  registers : Registers
  timer : Timer
  requested : Interrupts
  enabled : UInt8
  /-- Every sound event so far, the first one first. -/
  sound : Array Sound.Event

/-- Who writes. A program cannot change what belongs to the hardware, and only its writes have
effects beyond the byte. -/
inductive Writer
  | program | hardware
  deriving DecidableEq

namespace Bus

def boot (revision : Revision) (cartridge : Option Cartridge) : Bus where
  cartridge := cartridge
  vram := Vector.replicate 0x2000 0
  wram := Vector.replicate 0x2000 0
  oam := Vector.replicate 0xA0 0
  hram := Vector.replicate 0x7F 0
  registers := .boot
  timer := .boot revision
  requested := .vblank
  enabled := 0
  sound := #[]

/-- Only the cartridge and the sound trace outlive a reset. -/
def reset (revision : Revision) (s : Bus) : Bus :=
  { boot revision s.cartridge with sound := s.sound }

def readCell (s : Bus) (a : UInt16) : Cell → UInt8
  | .cartridge => match s.cartridge with
    | some c => c.read a
    | none => 0xFF
  | .vram i => s.vram[i]
  | .wram i => s.wram[i]
  | .oam i => s.oam[i]
  | .unusable => 0xFF
  | .timer r => s.timer.read r
  | .requests => s.requested.bits ||| 0xE0
  | .register r => s.registers.visible r
  | .hram i => s.hram[i]
  | .enables => s.enabled

def read (s : Bus) (a : UInt16) : UInt8 := s.readCell a (.ofAddress a)

/-- Sets a register and touches nothing else. -/
def store (s : Bus) (r : Register) (v : UInt8) : Bus :=
  { s with registers := s.registers.put r v }

/-- Copies bytes from `source` on into the first `n` bytes of the sprite table, one after the
other. -/
def copySprites (source : UInt16) : Nat → Bus → Bus
  | 0, s => s
  | n + 1, s =>
    let s := copySprites source n s
    if h : n < 0xA0 then
      let v := s.read (source + UInt16.ofNat n)
      { s with oam := s.oam.set n v }
    else s

/-- What follows when a program has written `v` to a register. -/
def follow (s : Bus) (r : Register) (v : UInt8) : Bus :=
  if r = .dma then copySprites (word v 0) 0xA0 s
  else match Sound.events s.registers r v with
    | [] => s
    | events => { s with sound := s.sound ++ events }

def writeRegister (s : Bus) (w : Writer) (r : Register) (v : UInt8) : Bus :=
  match w with
  | .program => (s.store r (s.registers.programmed r v)).follow r v
  | .hardware => s.store r v

/-- The hardware sets the divider without the timer taking notice. -/
def writeTimer (s : Bus) (w : Writer) (r : Timer.Register) (v : UInt8) : Bus :=
  match w, r with
  | .hardware, .divider => { s with timer.divider := word v 0 }
  | _, _ => { s with timer := s.timer.write r v }

def writeCell (s : Bus) (w : Writer) (a : UInt16) (v : UInt8) : Cell → Bus
  | .cartridge => { s with cartridge := s.cartridge.map (·.write a v) }
  | .vram i => { s with vram := s.vram.set i v }
  | .wram i => { s with wram := s.wram.set i v }
  | .oam i => { s with oam := s.oam.set i v }
  | .unusable => s
  | .timer r => s.writeTimer w r v
  | .requests => { s with requested := .ofByte v }
  | .register r => s.writeRegister w r v
  | .hram i => { s with hram := s.hram.set i v }
  | .enables => { s with enabled := v }

/-- A write by the program, or by another part of the machine. -/
def writeBy (s : Bus) (w : Writer) (a : UInt16) (v : UInt8) : Bus :=
  s.writeCell w a v (.ofAddress a)

def write (s : Bus) (a : UInt16) (v : UInt8) : Bus := s.writeBy .program a v

def request (s : Bus) (i : Interrupts) : Bus := { s with requested := s.requested.union i }

/-- Forgets the sound events so far. -/
def drainSound (s : Bus) : Bus := { s with sound := #[] }

/-- The interrupts that are both requested and enabled. -/
def pending (s : Bus) : Interrupts := s.requested.inter (.ofByte s.enabled)

/-- Runs the timer and passes its interrupt on. -/
def stepTimer (n : Nat) (s : Bus) : Bus :=
  let timer := s.timer.step n
  let rang := timer.interrupt
  let s := { s with timer := { timer with interrupt := false } }
  if rang then s.request .timer else s

end Bus

end DotMatrix
