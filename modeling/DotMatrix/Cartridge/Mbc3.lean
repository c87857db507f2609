import DotMatrix.Cartridge.Window

namespace DotMatrix

/-- A controller with five clock registers beside the RAM banks. They are written at once but
read as they were at the last latch. The clock itself stands still. -/
structure Mbc3 where
  ramOpen : Bool
  bank : UInt8
  select : UInt8
  clock : Vector UInt8 5
  latched : Vector UInt8 5
  /-- The last write to the latch was zero. -/
  armed : Bool
  deriving DecidableEq

namespace Mbc3

def initial : Mbc3 := ⟨false, 1, 0, Vector.replicate 5 0, Vector.replicate 5 0, false⟩

def romBank (m : Mbc3) (a : UInt16) : Nat :=
  if a < 0x4000 then 0 else m.bank.toNat

def ramWindow (m : Mbc3) : RamWindow :=
  if m.ramOpen then
    if m.select ≤ 0x03 then .bank m.select.toNat
    else if h : 8 ≤ m.select.toNat ∧ m.select.toNat < 13 then
      .clock ⟨m.select.toNat - 8, by omega⟩
    else .closed
  else .closed

def write (m : Mbc3) (a : UInt16) (v : UInt8) : Mbc3 :=
  if a < 0x2000 then { m with ramOpen := opensRam v }
  else if a < 0x4000 then { m with bank := nonzeroBank (v &&& 0x7F) }
  else if a < 0x6000 then { m with select := v &&& 0x0F }
  else { m with
    latched := if m.armed && v == 1 then m.clock else m.latched
    armed := v == 0 }

end Mbc3

end DotMatrix
