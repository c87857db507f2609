import DotMatrix.Cartridge.Window

namespace DotMatrix

/-- A controller with four-bit RAM cells inside. Address bit 8 tells its two registers apart. -/
structure Mbc2 where
  ramOpen : Bool
  bank : UInt8
  deriving DecidableEq

namespace Mbc2

def initial : Mbc2 := ⟨false, 1⟩

def romBank (m : Mbc2) (a : UInt16) : Nat :=
  if a < 0x4000 then 0 else m.bank.toNat

def ramWindow (m : Mbc2) : RamWindow :=
  if m.ramOpen then .cells else .closed

def write (m : Mbc2) (a : UInt16) (v : UInt8) : Mbc2 :=
  if 0x4000 ≤ a then m
  else if a &&& 0x0100 = 0 then { m with ramOpen := opensRam v }
  else { m with bank := nonzeroBank (v &&& 0x0F) }

end Mbc2

end DotMatrix
