import DotMatrix.Text.Hex
import DotMatrix.Text.Blank
import DotMatrix.Text.Utf8

namespace DotMatrix

/-- Why an image is not a cartridge. -/
inductive ImageError
  | tooSmall (size : Nat)
  | unsupportedType (code : UInt8)
  | invalidRomSize (code : UInt8)
  | invalidRamSize (code : UInt8)
  | sizeMismatch (declared actual : Nat)
  deriving DecidableEq

def ImageError.message : ImageError → String
  | tooSmall size => "image is " ++ toString size ++ " bytes, too small to hold a cartridge header"
  | unsupportedType code => "unsupported cartridge type 0x" ++ Text.hexByte code
  | invalidRomSize code => "invalid ROM size code 0x" ++ Text.hexByte code
  | invalidRamSize code => "invalid RAM size code 0x" ++ Text.hexByte code
  | sizeMismatch declared actual =>
    "header declares " ++ toString declared ++ " bytes of ROM but the image holds " ++
      toString actual

/-- The kinds of bank controller. -/
inductive ControllerKind
  | fixed | mbc1 | mbc2 | mbc3 | mbc5
  deriving DecidableEq

/-- What an image says of itself. -/
structure Header where
  title : String
  kindCode : UInt8
  romCode : UInt8
  ramCode : UInt8
  checksum : UInt8
  deriving DecidableEq

namespace Header

def romBankSize : Nat := 0x4000

/-- The title ends at its first zero byte. -/
def titleOf (bytes : List UInt8) : String :=
  String.ofList (Text.trim (Text.Utf8.decode (bytes.takeWhile (· != 0))))

def ofImage (image : Array UInt8) : Except ImageError Header :=
  if small : image.size < 0x150 then .error (.tooSmall image.size)
  else .ok {
    title := titleOf (image.extract 0x134 0x144).toList
    kindCode := image[0x147]
    romCode := image[0x148]
    ramCode := image[0x149]
    checksum := image[0x14D] }

def kind (h : Header) : Except ImageError ControllerKind :=
  let n := h.kindCode.toNat
  if n = 0x00 ∨ n = 0x08 ∨ n = 0x09 then .ok .fixed
  else if 0x01 ≤ n ∧ n ≤ 0x03 then .ok .mbc1
  else if n = 0x05 ∨ n = 0x06 then .ok .mbc2
  else if 0x0F ≤ n ∧ n ≤ 0x13 then .ok .mbc3
  else if 0x19 ≤ n ∧ n ≤ 0x1E then .ok .mbc5
  else .error (.unsupportedType h.kindCode)

/-- Whether the RAM outlives the power supply. -/
def hasBattery (h : Header) : Bool :=
  [0x03, 0x06, 0x09, 0x0F, 0x10, 0x13, 0x1B, 0x1E].contains h.kindCode

/-- In bytes. -/
def romSize (h : Header) : Except ImageError Nat :=
  let n := h.romCode.toNat
  if n ≤ 0x08 then .ok (0x8000 <<< n)
  else if n = 0x52 then .ok (72 * romBankSize)
  else if n = 0x53 then .ok (80 * romBankSize)
  else if n = 0x54 then .ok (96 * romBankSize)
  else .error (.invalidRomSize h.romCode)

/-- In bytes. A controller with RAM of its own leaves the code unread. -/
def ramSize (h : Header) : Except ImageError Nat :=
  if h.kindCode = 0x05 ∨ h.kindCode = 0x06 then .ok 0x200
  else match h.ramCode.toNat with
    | 0 => .ok 0
    | 1 => .ok 0x800
    | 2 => .ok 0x2000
    | 3 => .ok 0x8000
    | 4 => .ok 0x20000
    | 5 => .ok 0x10000
    | _ => .error (.invalidRamSize h.ramCode)

/-- The checksum that the header should hold. Nothing is refused for a wrong one. -/
def checksumOf (image : Array UInt8) : UInt8 :=
  (image.extract 0x134 0x14D).foldl (fun sum b => sum - b - 1) 0

end Header

end DotMatrix
