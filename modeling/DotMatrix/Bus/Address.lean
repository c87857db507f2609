import DotMatrix.Bus.Registers
import DotMatrix.Timer

namespace DotMatrix

/-- What an address names. -/
inductive Cell
  | cartridge
  | vram (i : Fin 0x2000)
  | wram (i : Fin 0x2000)
  | oam (i : Fin 0xA0)
  | unusable
  | timer (r : Timer.Register)
  | requests
  | register (r : Register)
  | hram (i : Fin 0x7F)
  | enables
  deriving DecidableEq

theorem Cell.offset_lt {n start size : Nat} (below : n < start + size) (positive : 0 < size) :
    n - start < size := by
  omega

/-- Work RAM shows twice. The second image ends early, below the sprite table. -/
def Cell.ofAddress (a : UInt16) : Cell :=
  let n := a.toNat
  if n < 0x8000 then .cartridge
  else if h : n < 0xA000 then .vram ⟨n - 0x8000, offset_lt h (Nat.succ_pos _)⟩
  else if n < 0xC000 then .cartridge
  else if n < 0xFE00 then .wram ⟨n % 0x2000, Nat.mod_lt _ (Nat.succ_pos _)⟩
  else if h : n < 0xFEA0 then .oam ⟨n - 0xFE00, offset_lt h (Nat.succ_pos _)⟩
  else if n < 0xFF00 then .unusable
  else if h : n < 0xFF80 then
    match Timer.Register.at? a with
    | some r => .timer r
    | none => if n = 0xFF0F then .requests else .register ⟨n - 0xFF00, offset_lt h (Nat.succ_pos _)⟩
  else if h : n < 0xFFFF then .hram ⟨n - 0xFF80, offset_lt h (Nat.succ_pos _)⟩
  else .enables

namespace Register

/-- The address of a register. -/
def address (r : Register) : UInt16 := 0xFF00 + UInt16.ofNat r

end Register

example : Cell.ofAddress 0xFD00 = .wram 0x1D00 := by decide
example : Cell.ofAddress 0xFF07 = .timer .control := by decide
example : Cell.ofAddress 0xFF41 = .register .stat := by decide

end DotMatrix
