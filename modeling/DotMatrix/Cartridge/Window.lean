namespace DotMatrix

/-- What stands behind the addresses from 0xA000 to 0xBFFF. -/
inductive RamWindow
  /-- Nothing answers. -/
  | closed
  | bank (number : Nat)
  /-- Four-bit cells, 512 of them over and over. -/
  | cells
  /-- One of five clock registers. -/
  | clock (register : Fin 5)
  deriving DecidableEq

/-- The value that opens the RAM window when written to the gate. -/
def opensRam (v : UInt8) : Bool := v &&& 0x0F == 0x0A

/-- A bank field that cannot be zero. -/
def nonzeroBank (v : UInt8) : UInt8 := if v = 0 then 1 else v

end DotMatrix
