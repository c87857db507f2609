import DotMatrix.Lcd.Scanline

namespace DotMatrix

/-- What the LCD is doing. A line goes through scan, transfer and rest; the lines below the screen
have no parts. -/
inductive LcdMode
  | rest | blank | scan | transfer
  deriving DecidableEq

namespace LcdMode

def code : LcdMode → UInt8
  | rest => 0
  | blank => 1
  | scan => 2
  | transfer => 3

/-- In dots. -/
def length : LcdMode → Nat
  | rest => 204
  | blank => 456
  | scan => 80
  | transfer => 172

end LcdMode

structure Lcd where
  mode : LcdMode
  line : Fin 154
  /-- How far it is into the mode. -/
  dot : Nat
  on : Bool
  latch : Latch
  /-- The line of the window that comes next. -/
  windowLine : UInt8
  /-- Whether the line was the one asked for when they were last compared. -/
  coincidence : Bool
  /-- The joined status sources, as they were last seen. -/
  statusLine : Bool
  front : Frame
  back : Frame
  sprites : List Sprite
  tall : Bool
  /-- The frames completed so far, without a bound. A frame takes 70224 dots of four million a
  second, so a count of 64 bits would last for billions of years. -/
  frames : Nat

namespace Lcd

instance neZero : @NeZero Nat Zero.ofOfNat0 154 := ⟨by decide⟩

/-- The LCD before its first dot. It counts as off until then. -/
def initial : Lcd where
  mode := .scan
  line := 0
  dot := 0
  on := false
  latch := .zero
  windowLine := 0
  coincidence := false
  statusLine := false
  front := .blank
  back := .blank
  sprites := []
  tall := false
  frames := 0

/-- Draws the current line into the back frame. -/
def draw (s : Lcd) (ram : VideoRam) : Lcd :=
  if h : s.line.val < 144 then
    let row := Scanline.draw s.latch ram s.line s.windowLine s.sprites s.tall
    { s with
      back := s.back.set s.line row
      windowLine := if s.latch.windowOn s.line then s.windowLine + 1 else s.windowLine }
  else s

end Lcd

end DotMatrix
