namespace DotMatrix

/-- A place among the bytes from 0xFF00 to 0xFF7F. -/
abbrev Register := Fin 0x80

abbrev Registers := Vector UInt8 0x80

namespace Register

instance neZero : @NeZero Nat Zero.ofOfNat0 0x80 := ⟨by decide⟩

def p1 : Register := 0x00
def sb : Register := 0x01
def sc : Register := 0x02
def nr10 : Register := 0x10
def nr52 : Register := 0x26
def lcdc : Register := 0x40
def stat : Register := 0x41
def scy : Register := 0x42
def scx : Register := 0x43
def ly : Register := 0x44
def lyc : Register := 0x45
def dma : Register := 0x46
def bgp : Register := 0x47
def obp0 : Register := 0x48
def obp1 : Register := 0x49
def wy : Register := 0x4A
def wx : Register := 0x4B

/-- The unconnected bits of the sound registers from 0x10 on, channel by channel. -/
def soundOpenBits : Vector UInt8 0x17 :=
  #v[0x80, 0x3F, 0x00, 0xFF, 0xBF,
     0xFF, 0x3F, 0x00, 0xFF, 0xBF,
     0x7F, 0xFF, 0x9F, 0xFF, 0xBF,
     0xFF, 0xFF, 0x00, 0x00, 0xBF,
     0x00, 0x00, 0x70]

/-- The bits that read as one whatever is stored. -/
def openBits (r : Register) : UInt8 :=
  if r = p1 then 0xC0
  else if r = sb then 0x00
  else if r = sc then 0x7E
  else if h : 0x10 ≤ r.val ∧ r.val ≤ 0x26 then soundOpenBits[r.val - 0x10]
  else if 0x30 ≤ r.val ∧ r.val ≤ 0x3F then 0x00
  else if r = stat then 0x80
  else if 0x40 ≤ r.val ∧ r.val ≤ 0x4B then 0x00
  else 0xFF

/-- The bits that a program can change. The others belong to the hardware. -/
def programBits (r : Register) : UInt8 :=
  if r = p1 then 0x30
  else if r = stat then 0x78
  else if r = nr52 then 0x80
  else if r = ly then 0x00
  else 0xFF

end Register

namespace Registers

/-- The byte itself, the hidden bits included. -/
def stored (file : Registers) (r : Register) : UInt8 := file[r]

def put (file : Registers) (r : Register) (v : UInt8) : Registers := file.set r v

theorem stored_put_of_ne {file : Registers} {r s : Register} {v : UInt8} (other : r ≠ s) :
    (file.put r v).stored s = file.stored s := by
  have distinct : r.val ≠ s.val := fun same => other (Fin.ext same)
  simp [put, stored, distinct]

/-- What the start-up program leaves behind; every register not named is zero. -/
def bootValues : List (Register × UInt8) :=
  [(.p1, 0xCF), (.sc, 0x7E), (0x10, 0x80), (0x11, 0xBF), (0x12, 0xF3), (0x14, 0xBF), (0x16, 0x3F),
   (0x19, 0xBF), (0x1A, 0x7F), (0x1B, 0xFF), (0x1C, 0x9F), (0x1E, 0xBF), (0x20, 0xFF), (0x23, 0xBF),
   (0x24, 0x77), (0x25, 0xF3), (.nr52, 0xF1), (.lcdc, 0x91), (.stat, 0x80), (.bgp, 0xFC),
   (.obp0, 0xFF), (.obp1, 0xFF)]

def boot : Registers :=
  bootValues.foldl (fun file (r, v) => file.put r v) (Vector.replicate 0x80 0)

/-- The byte that is read. -/
def visible (file : Registers) (r : Register) : UInt8 := file.stored r ||| r.openBits

/-- The stored byte after a program has written `v`. -/
def programmed (file : Registers) (r : Register) (v : UInt8) : UInt8 :=
  (file.stored r &&& ~~~r.programBits) ||| (v &&& r.programBits)

end Registers

end DotMatrix
