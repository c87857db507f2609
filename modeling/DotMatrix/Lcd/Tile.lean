namespace DotMatrix

abbrev VideoRam := Vector UInt8 0x2000

/-- The two bits of a pixel before they pass through a palette. -/
abbrev Color := Fin 4

instance Color.neZero : @NeZero Nat Zero.ofOfNat0 4 := ⟨by decide⟩

/-- What the screen shows, from the lightest to the darkest. -/
abbrev Shade := Fin 4

/-- Red, green and blue, a byte each. -/
def Shade.rgb : Shade → UInt32
  | 0 => 0x009BBC0F
  | 1 => 0x008BAC0F
  | 2 => 0x00306230
  | _ => 0x000F380F

/-- A palette byte holds four shades, that of color zero in its low bits. -/
def shade (palette : UInt8) (c : Color) : Shade := Fin.ofNat 4 (palette.toNat >>> (2 * c.val))

/-- The pixel that stands `column` places from the left in a row of eight. -/
def rowColor (lower upper : UInt8) (column : Nat) : Color :=
  match upper.toNat.testBit (7 - column), lower.toNat.testBit (7 - column) with
  | false, false => 0
  | false, true => 1
  | true, false => 2
  | true, true => 3

/-- The tile that a map byte names. The last 256 tiles are reached by a signed byte. -/
def tileNumber (signed : Bool) (i : UInt8) : Fin 384 :=
  if signed then ⟨128 + (i + 128).toNat, by have := (i + 128).toNat_lt; omega⟩
  else ⟨i.toNat, by have := i.toNat_lt; omega⟩

namespace VideoRam

/-- The tile at column `x / 8` and row `y / 8` of one of the two maps. -/
def mapByte (ram : VideoRam) (second : Bool) (x y : UInt8) : UInt8 :=
  have hx := x.toNat_lt
  have hy := y.toNat_lt
  if second then ram[0x1C00 + y.toNat / 8 * 32 + x.toNat / 8]
  else ram[0x1800 + y.toNat / 8 * 32 + x.toNat / 8]

def tileColor (ram : VideoRam) (tile : Fin 384) (x y : UInt8) : Color :=
  have ht := tile.isLt
  let row := tile.val * 16 + y.toNat % 8 * 2
  rowColor ram[row] ram[row + 1] (x.toNat % 8)

/-- A pixel of the plane of 256 by 256 that a map spans. -/
def planeColor (ram : VideoRam) (signed second : Bool) (x y : UInt8) : Color :=
  ram.tileColor (tileNumber signed (ram.mapByte second x y)) x y

end VideoRam

end DotMatrix
