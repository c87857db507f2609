namespace DotMatrix.Text.Utf8

/-- A sequence of which only the first bytes have been read. The next byte continues it
if it lies between `lowest` and `highest`. -/
structure Unfinished where
  bits : Nat
  missing : Nat
  lowest : UInt8
  highest : UInt8

/-- Stands for a sequence that cannot be read. -/
def replacement : Char := Char.ofNat 0xFFFD

/-- What the first byte of a longer sequence announces. The bounds on the second byte leave out
overlong forms, surrogates and numbers above the last code point. -/
def opening (b : UInt8) : Option Unfinished :=
  if 0xC2 ≤ b && b ≤ 0xDF then some ⟨b.toNat - 0xC0, 1, 0x80, 0xBF⟩
  else if b == 0xE0 then some ⟨0, 2, 0xA0, 0xBF⟩
  else if b == 0xED then some ⟨13, 2, 0x80, 0x9F⟩
  else if 0xE1 ≤ b && b ≤ 0xEF then some ⟨b.toNat - 0xE0, 2, 0x80, 0xBF⟩
  else if b == 0xF0 then some ⟨0, 3, 0x90, 0xBF⟩
  else if 0xF1 ≤ b && b ≤ 0xF3 then some ⟨b.toNat - 0xF0, 3, 0x80, 0xBF⟩
  else if b == 0xF4 then some ⟨4, 3, 0x80, 0x8F⟩
  else none

/-- A byte at the start of a sequence: the characters it settles and the sequence it opens. -/
def start (b : UInt8) : List Char × Option Unfinished :=
  if b < 0x80 then ([Char.ofNat b.toNat], none)
  else match opening b with
    | some u => ([], some u)
    | none => ([replacement], none)

/-- Reads on from an unfinished sequence. A byte that cannot continue it ends it there and is
read again as a start. -/
def decodeFrom : Option Unfinished → List UInt8 → List Char
  | none, [] => []
  | some _, [] => [replacement]
  | none, b :: rest =>
    let (settled, opened) := start b
    settled ++ decodeFrom opened rest
  | some u, b :: rest =>
    if u.lowest ≤ b && b ≤ u.highest then
      let bits := u.bits * 64 + (b.toNat - 0x80)
      if u.missing == 1 then Char.ofNat bits :: decodeFrom none rest
      else decodeFrom (some ⟨bits, u.missing - 1, 0x80, 0xBF⟩) rest
    else
      let (settled, opened) := start b
      replacement :: settled ++ decodeFrom opened rest

/-- Reads UTF-8; each longest piece that cannot begin a character becomes one replacement. -/
def decode (bytes : List UInt8) : List Char := decodeFrom none bytes

example : decode [0x41, 0xC3, 0xA9, 0xE2, 0x82, 0x42, 0xF5] =
    ['A', Char.ofNat 0xE9, replacement, 'B', replacement] := by decide

end DotMatrix.Text.Utf8
