import DotMatrix.Bus.Registers
import DotMatrix.Lcd.Sprite

namespace DotMatrix

abbrev Row := Vector Shade 160

abbrev Frame := Vector Row 144

namespace Frame

def blank : Frame := Vector.replicate 144 (Vector.replicate 160 0)

end Frame

/-- The registers as they stood when the LCD last changed its mode. -/
structure Latch where
  control : UInt8
  scrollY : UInt8
  scrollX : UInt8
  palette : UInt8
  spritePalette0 : UInt8
  spritePalette1 : UInt8
  windowY : UInt8
  windowX : UInt8
  deriving DecidableEq

namespace Latch

def zero : Latch := ⟨0, 0, 0, 0, 0, 0, 0, 0⟩

def ofRegisters (file : Registers) : Latch where
  control := file.stored .lcdc
  scrollY := file.stored .scy
  scrollX := file.stored .scx
  palette := file.stored .bgp
  spritePalette0 := file.stored .obp0
  spritePalette1 := file.stored .obp1
  windowY := file.stored .wy
  windowX := file.stored .wx

def background (r : Latch) : Bool := r.control.toNat.testBit 0
def sprites (r : Latch) : Bool := r.control.toNat.testBit 1
def tallSprites (r : Latch) : Bool := r.control.toNat.testBit 2
def backgroundMap (r : Latch) : Bool := r.control.toNat.testBit 3
def signedTiles (r : Latch) : Bool := !r.control.toNat.testBit 4
def window (r : Latch) : Bool := r.control.toNat.testBit 5
def windowMap (r : Latch) : Bool := r.control.toNat.testBit 6

/-- Whether the window covers part of a line. It goes with the background. -/
def windowOn (r : Latch) (line : Nat) : Bool :=
  r.background && r.window && r.windowY.toNat ≤ line && r.windowX ≤ 166

end Latch

namespace Scanline

/-- The colors of the background, scrolled; color zero while it is off. -/
def background (r : Latch) (ram : VideoRam) (line : Nat) : Vector Color 160 :=
  if r.background then
    let y := UInt8.ofNat line + r.scrollY
    Vector.ofFn fun x => ram.planeColor r.signedTiles r.backgroundMap (UInt8.ofNat x + r.scrollX) y
  else Vector.replicate 160 0

/-- The window lies over the background from seven columns left of its position on, and shows its
own line `y`. -/
def withWindow (r : Latch) (ram : VideoRam) (y : UInt8) (colors : Vector Color 160) :
    Vector Color 160 :=
  Vector.ofFn fun x =>
    if r.windowX.toNat ≤ x.val + 7 then
      ram.planeColor r.signedTiles r.windowMap (UInt8.ofNat (x.val + 7) - r.windowX) y
    else colors.get x

def colors (r : Latch) (ram : VideoRam) (line : Nat) (windowLine : UInt8) : Vector Color 160 :=
  let colors := background r ram line
  if r.windowOn line then withWindow r ram windowLine colors else colors

/-- A line while sprites are painted on it. -/
structure Canvas where
  shades : Row
  /-- The columns that a sprite has claimed. -/
  claimed : Vector Bool 160

/-- Paints one pixel of a sprite. A pixel that hides behind the background is claimed all the
same. -/
def paintPixel (r : Latch) (ram : VideoRam) (tall : Bool) (colors : Vector Color 160) (s : Sprite)
    (canvas : Canvas) (column : Nat) : Canvas :=
  let color := s.color ram tall column
  let place := s.x.toNat + column
  if h : 8 ≤ place ∧ place < 168 then
    if color = 0 || canvas.claimed[place - 8] then canvas
    else
      let canvas := { canvas with claimed := canvas.claimed.set (place - 8) true }
      if s.behind && colors[place - 8] != 0 then canvas
      else
        let palette := if s.secondPalette then r.spritePalette1 else r.spritePalette0
        { canvas with shades := canvas.shades.set (place - 8) (shade palette color) }
  else canvas

def paintSprite (r : Latch) (ram : VideoRam) (tall : Bool) (colors : Vector Color 160)
    (canvas : Canvas) (s : Sprite) : Canvas :=
  (List.range 8).foldl (paintPixel r ram tall colors s) canvas

/-- A line of the screen. The sprites and their height are those of the scan. -/
def draw (r : Latch) (ram : VideoRam) (line : Nat) (windowLine : UInt8) (sprites : List Sprite)
    (tall : Bool) : Row :=
  let colors := colors r ram line windowLine
  let shades := colors.map (shade r.palette)
  if r.sprites then
    (sprites.foldl (paintSprite r ram tall colors) ⟨shades, Vector.replicate 160 false⟩).shades
  else shades

end Scanline

end DotMatrix
