namespace DotMatrix

namespace Flags

def zero : UInt8 := 0x80
def subtract : UInt8 := 0x40
def half : UInt8 := 0x20
def carry : UInt8 := 0x10

def has (f flag : UInt8) : Bool := f &&& flag != 0

def pack (z n h c : Bool) : UInt8 :=
  (if z then zero else 0) ||| (if n then subtract else 0) ||| (if h then half else 0) |||
    (if c then carry else 0)

end Flags

/-- A byte and the flags that come with it. -/
structure Computed where
  value : UInt8
  flags : UInt8
  deriving DecidableEq

/-- A word and the flags that come with it. -/
structure ComputedWord where
  value : UInt16
  flags : UInt8
  deriving DecidableEq

/-- The operations on the accumulator, in the order of their codes. -/
inductive Arithmetic
  | add | adc | sub | sbc | and | xor | or | compare
  deriving DecidableEq

/-- The rotations and shifts, in the order of their codes. -/
inductive Shift
  | rlc | rrc | rl | rr | sla | sra | swap | srl
  deriving DecidableEq

namespace Computed

def ofLogic (value : UInt8) (half : Bool) : Computed :=
  ⟨value, Flags.pack (value = 0) false half false⟩

def sum (a v : UInt8) (carry : Bool) : Computed :=
  let value := a + v + carry.toUInt8
  ⟨value, Flags.pack (value = 0) false
    (a.toNat % 16 + v.toNat % 16 + carry.toNat > 15) (a.toNat + v.toNat + carry.toNat > 255)⟩

def difference (a v : UInt8) (carry : Bool) : Computed :=
  let value := a - v - carry.toUInt8
  ⟨value, Flags.pack (value = 0) true
    (a.toNat % 16 < v.toNat % 16 + carry.toNat) (a.toNat < v.toNat + carry.toNat)⟩

/-- The carry is left alone. -/
def increment (v f : UInt8) : Computed :=
  ⟨v + 1, Flags.pack (v + 1 = 0) false (v.toNat % 16 = 15) (Flags.has f Flags.carry)⟩

def decrement (v f : UInt8) : Computed :=
  ⟨v - 1, Flags.pack (v - 1 = 0) true (v.toNat % 16 = 0) (Flags.has f Flags.carry)⟩

/-- Mends a sum or a difference of two bytes that hold two decimal digits each. -/
def decimalAdjust (a f : UInt8) : Computed :=
  let subtracted := Flags.has f Flags.subtract
  let lower := Flags.has f Flags.half || (!subtracted && a.toNat % 16 > 9)
  let upper := Flags.has f Flags.carry || (!subtracted && a.toNat > 0x99)
  let correction : UInt8 := (if lower then 0x06 else 0) + (if upper then 0x60 else 0)
  let value := if subtracted then a - correction else a + correction
  ⟨value, Flags.pack (value = 0) subtracted false upper⟩

end Computed

namespace Arithmetic

/-- The accumulator and the flags after an operation with `v`. A comparison is a subtraction that
drops its difference. -/
def apply (op : Arithmetic) (a f v : UInt8) : Computed :=
  match op with
  | .add => .sum a v false
  | .adc => .sum a v (Flags.has f Flags.carry)
  | .sub => .difference a v false
  | .sbc => .difference a v (Flags.has f Flags.carry)
  | .and => .ofLogic (a &&& v) true
  | .xor => .ofLogic (a ^^^ v) false
  | .or => .ofLogic (a ||| v) false
  | .compare => ⟨a, (Computed.difference a v false).flags⟩

end Arithmetic

namespace Shift

/-- The byte after the shift, and the bit that fell out. -/
def move (op : Shift) (v : UInt8) (carry : Bool) : UInt8 × Bool :=
  let top := v.toNat.testBit 7
  let bottom := v.toNat.testBit 0
  match op with
  | .rlc => (v <<< 1 ||| v >>> 7, top)
  | .rrc => (v >>> 1 ||| v <<< 7, bottom)
  | .rl => (v <<< 1 ||| carry.toUInt8, top)
  | .rr => (v >>> 1 ||| carry.toUInt8 <<< 7, bottom)
  | .sla => (v <<< 1, top)
  | .sra => (v >>> 1 ||| v &&& 0x80, bottom)
  | .swap => (v <<< 4 ||| v >>> 4, false)
  | .srl => (v >>> 1, bottom)

def apply (op : Shift) (v f : UInt8) : Computed :=
  let moved := op.move v (Flags.has f Flags.carry)
  ⟨moved.1, Flags.pack (moved.1 = 0) false false moved.2⟩

end Shift

/-- The flags of a test of one bit. -/
def bitFlags (v : UInt8) (bit : Nat) (f : UInt8) : UInt8 :=
  Flags.pack (!v.toNat.testBit bit) false true (Flags.has f Flags.carry)

/-- The zero flag is left alone. -/
def ComputedWord.sum (x y : UInt16) (f : UInt8) : ComputedWord :=
  ⟨x + y, Flags.pack (Flags.has f Flags.zero) false
    (x.toNat % 0x1000 + y.toNat % 0x1000 > 0x0FFF) (x.toNat + y.toNat > 0xFFFF)⟩

/-- A byte as a signed distance. -/
def signExtend (v : UInt8) : UInt16 :=
  if v < 0x80 then v.toUInt16 else v.toUInt16 + 0xFF00

/-- A word moved by a signed distance. The flags are those of the unsigned sum of the low bytes. -/
def ComputedWord.moved (x : UInt16) (distance : UInt8) : ComputedWord :=
  ⟨x + signExtend distance, Flags.pack false false
    (x.toNat % 16 + distance.toNat % 16 > 15) (x.toNat % 256 + distance.toNat > 255)⟩

example : (Computed.sum 0x0F 0x01 false) = ⟨0x10, Flags.half⟩ := by decide
example : (Computed.decimalAdjust 0x3C 0) = ⟨0x42, 0⟩ := by decide

end DotMatrix
