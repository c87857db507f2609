namespace DotMatrix

/-- Bytes cut into banks of one size. Bank numbers and offsets wrap, so that every pair of them
names a byte unless there is none. -/
structure Banks where
  data : Array UInt8
  bankSize : Nat
  deriving DecidableEq

namespace Banks

def empty (bankSize : Nat) : Banks := ⟨#[], bankSize⟩

def zeros (size bankSize : Nat) : Banks := ⟨Array.replicate size 0, bankSize⟩

/-- A last bank that is not full counts. -/
def count (s : Banks) : Nat := (s.data.size + s.bankSize - 1) / s.bankSize

def isEmpty (s : Banks) : Bool := s.data.isEmpty

/-- The place of a byte. -/
def place? (s : Banks) (bank offset : Nat) : Option (Fin s.data.size) :=
  if h : 0 < s.data.size then
    some ⟨(bank % s.count * s.bankSize + offset % s.bankSize) % s.data.size, Nat.mod_lt _ h⟩
  else none

def read (s : Banks) (bank offset : Nat) : UInt8 :=
  match s.place? bank offset with
  | some i => s.data[i]
  | none => 0xFF

def write (s : Banks) (bank offset : Nat) (v : UInt8) : Banks :=
  match s.place? bank offset with
  | some i => { s with data := s.data.set i v }
  | none => s

@[simp] theorem write_bankSize (s : Banks) (bank offset : Nat) (v : UInt8) :
    (s.write bank offset v).bankSize = s.bankSize := by
  unfold write; split <;> rfl

@[simp] theorem write_size (s : Banks) (bank offset : Nat) (v : UInt8) :
    (s.write bank offset v).data.size = s.data.size := by
  unfold write; split <;> simp

end Banks

end DotMatrix
