import DotMatrix.Cartridge.Banks
import DotMatrix.Cartridge.Controller

namespace DotMatrix

structure Cartridge where
  header : Header
  rom : Banks
  ram : Banks
  controller : Controller
  /-- The file that keeps the RAM, if there is one. -/
  saveName : Option String
  deriving DecidableEq

namespace Cartridge

def ramBankSize : ControllerKind → Nat
  | .mbc2 => 0x200
  | _ => 0x2000

/-- Accepts an image. Bytes past the declared size are dropped. -/
def ofImage (image : Array UInt8) : Except ImageError Cartridge := do
  let header ← Header.ofImage image
  let kind ← header.kind
  let romSize ← header.romSize
  let ramSize ← header.ramSize
  if image.size < romSize then throw (.sizeMismatch romSize image.size)
  return {
    header
    rom := ⟨image.extract 0 romSize, Header.romBankSize⟩
    ram := .zeros ramSize (ramBankSize kind)
    controller := .initial kind
    saveName := none }

/-- A byte of the cartridge's two windows; elsewhere nothing answers. -/
def read (c : Cartridge) (a : UInt16) : UInt8 :=
  if a < 0x8000 then c.rom.read (c.controller.romBank a) (a.toNat % 0x4000)
  else if 0xA000 ≤ a ∧ a < 0xC000 then
    match c.controller.ramWindow with
    | .closed => 0xFF
    | .bank n => c.ram.read n (a.toNat % 0x2000)
    | .cells => 0xF0 ||| c.ram.read 0 (a.toNat % 0x200)
    | .clock r => c.controller.readClock r
  else 0xFF

/-- Writes below 0x8000 set the controller, for ROM cannot change. -/
def write (c : Cartridge) (a : UInt16) (v : UInt8) : Cartridge :=
  if a < 0x8000 then { c with controller := c.controller.write a v }
  else if 0xA000 ≤ a ∧ a < 0xC000 then
    match c.controller.ramWindow with
    | .closed => c
    | .bank n => { c with ram := c.ram.write n (a.toNat % 0x2000) v }
    | .cells => { c with ram := c.ram.write 0 (a.toNat % 0x200) (v &&& 0x0F) }
    | .clock r => { c with controller := c.controller.writeClock r v }
  else c

end Cartridge

end DotMatrix
