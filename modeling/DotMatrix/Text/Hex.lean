import DotMatrix.Word

namespace DotMatrix.Text

/-- A hexadecimal digit, letters in upper case. -/
def hexDigit (n : Fin 16) : Char :=
  if n.val < 10 then Char.ofNat (48 + n) else Char.ofNat (55 + n)

/-- A byte as two digits. -/
def hexByte (b : UInt8) : String :=
  String.ofList [hexDigit (Fin.ofNat 16 (b.toNat / 16)), hexDigit (Fin.ofNat 16 b.toNat)]

/-- A word as four digits. -/
def hexWord (w : UInt16) : String := hexByte (high w) ++ hexByte (low w)

end DotMatrix.Text
