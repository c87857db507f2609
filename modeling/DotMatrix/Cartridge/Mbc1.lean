import DotMatrix.Cartridge.Window

namespace DotMatrix

/-- A controller with a five-bit bank field and a two-bit field that extends it, or selects the
RAM bank. -/
structure Mbc1 where
  ramOpen : Bool
  lower : UInt8
  upper : UInt8
  /-- The upper field counts for the low ROM half and for RAM too. -/
  wide : Bool
  deriving DecidableEq

namespace Mbc1

def initial : Mbc1 := ⟨false, 1, 0, false⟩

def romBank (m : Mbc1) (a : UInt16) : Nat :=
  if a < 0x4000 then (if m.wide then m.upper.toNat * 32 else 0)
  else m.upper.toNat * 32 + m.lower.toNat

def ramWindow (m : Mbc1) : RamWindow :=
  if m.ramOpen then .bank (if m.wide then m.upper.toNat else 0) else .closed

def write (m : Mbc1) (a : UInt16) (v : UInt8) : Mbc1 :=
  if a < 0x2000 then { m with ramOpen := opensRam v }
  else if a < 0x4000 then { m with lower := nonzeroBank (v &&& 0x1F) }
  else if a < 0x6000 then { m with upper := v &&& 0x03 }
  else { m with wide := v &&& 0x01 != 0 }

end Mbc1

end DotMatrix
