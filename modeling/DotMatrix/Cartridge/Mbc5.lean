import DotMatrix.Cartridge.Window
import DotMatrix.Word

namespace DotMatrix

/-- A controller with a nine-bit ROM bank, which may be zero, and sixteen RAM banks. -/
structure Mbc5 where
  ramOpen : Bool
  bank : UInt16
  ramBank : UInt8
  deriving DecidableEq

namespace Mbc5

def initial : Mbc5 := ⟨false, 1, 0⟩

def romBank (m : Mbc5) (a : UInt16) : Nat :=
  if a < 0x4000 then 0 else m.bank.toNat

def ramWindow (m : Mbc5) : RamWindow :=
  if m.ramOpen then .bank m.ramBank.toNat else .closed

def write (m : Mbc5) (a : UInt16) (v : UInt8) : Mbc5 :=
  if a < 0x2000 then { m with ramOpen := opensRam v }
  else if a < 0x3000 then { m with bank := word (high m.bank) v }
  else if a < 0x4000 then { m with bank := word (v &&& 0x01) (low m.bank) }
  else if a < 0x6000 then { m with ramBank := v &&& 0x0F }
  else m

end Mbc5

end DotMatrix
