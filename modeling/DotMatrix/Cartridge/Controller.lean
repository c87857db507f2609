import DotMatrix.Cartridge.Header
import DotMatrix.Cartridge.Mbc1
import DotMatrix.Cartridge.Mbc2
import DotMatrix.Cartridge.Mbc3
import DotMatrix.Cartridge.Mbc5

namespace DotMatrix

/-- The registers that decide what the cartridge windows show. -/
inductive Controller
  | fixed
  | mbc1 (m : Mbc1)
  | mbc2 (m : Mbc2)
  | mbc3 (m : Mbc3)
  | mbc5 (m : Mbc5)
  deriving DecidableEq

namespace Controller

def initial : ControllerKind → Controller
  | .fixed => fixed
  | .mbc1 => mbc1 .initial
  | .mbc2 => mbc2 .initial
  | .mbc3 => mbc3 .initial
  | .mbc5 => mbc5 .initial

def kind : Controller → ControllerKind
  | fixed => .fixed
  | mbc1 _ => .mbc1
  | mbc2 _ => .mbc2
  | mbc3 _ => .mbc3
  | mbc5 _ => .mbc5

/-- The ROM bank at an address below 0x8000. -/
def romBank (c : Controller) (a : UInt16) : Nat :=
  match c with
  | fixed => a.toNat / 0x4000
  | mbc1 m => m.romBank a
  | mbc2 m => m.romBank a
  | mbc3 m => m.romBank a
  | mbc5 m => m.romBank a

def ramWindow : Controller → RamWindow
  | fixed => .bank 0
  | mbc1 m => m.ramWindow
  | mbc2 m => m.ramWindow
  | mbc3 m => m.ramWindow
  | mbc5 m => m.ramWindow

/-- The byte of a latched clock register. -/
def readClock (c : Controller) (r : Fin 5) : UInt8 :=
  match c with
  | mbc3 m => m.latched[r]
  | _ => 0xFF

def writeClock (c : Controller) (r : Fin 5) (v : UInt8) : Controller :=
  match c with
  | mbc3 m => mbc3 { m with clock := m.clock.set r v }
  | other => other

/-- A write below 0x8000. -/
def write (c : Controller) (a : UInt16) (v : UInt8) : Controller :=
  match c with
  | fixed => fixed
  | mbc1 m => mbc1 (m.write a v)
  | mbc2 m => mbc2 (m.write a v)
  | mbc3 m => mbc3 (m.write a v)
  | mbc5 m => mbc5 (m.write a v)

@[simp] theorem kind_initial (k : ControllerKind) : (initial k).kind = k := by cases k <;> rfl

@[simp] theorem kind_write (c : Controller) (a : UInt16) (v : UInt8) :
    (c.write a v).kind = c.kind := by
  cases c <;> rfl

end Controller

end DotMatrix
