import DotMatrix.Lcd.Tile

namespace DotMatrix

/-- A sprite that crosses the current line. -/
structure Sprite where
  index : Fin 40
  /-- Eight more than the column of its left edge. -/
  x : UInt8
  /-- The row of its picture on this line, counted as if it stood upright. -/
  row : Fin 16
  tile : UInt8
  flags : UInt8
  deriving DecidableEq

namespace Sprite

def height (tall : Bool) : Nat := if tall then 16 else 8

/-- The row that a sprite shows on a line. Its vertical position is counted from 16 lines above the
screen. -/
def row? (y : UInt8) (line : Nat) (tall : Bool) : Option (Fin 16) :=
  if h : y.toNat ≤ line + 16 ∧ line + 16 < y.toNat + height tall then
    some ⟨line + 16 - y.toNat, by have := h.2; unfold height at this; split at this <;> omega⟩
  else none

/-- The entry of the sprite table, if it crosses the line. -/
def onLine? (table : Vector UInt8 0xA0) (line : Nat) (tall : Bool) (i : Fin 40) : Option Sprite :=
  have hi := i.isLt
  (row? table[i.val * 4] line tall).map fun row =>
    { index := i
      x := table[i.val * 4 + 1]
      row
      tile := table[i.val * 4 + 2]
      flags := table[i.val * 4 + 3] }

/-- The sprite further left goes before the other, the lower index before the higher. -/
def precedes (s t : Sprite) : Bool := s.x < t.x || (s.x == t.x && s.index ≤ t.index)

theorem precedes_trans {s t u : Sprite} (first : precedes s t = true)
    (second : precedes t u = true) : precedes s u = true := by
  simp only [precedes, Bool.or_eq_true, Bool.and_eq_true, decide_eq_true_eq, beq_iff_eq,
    UInt8.lt_iff_toNat_lt, ← UInt8.toNat_inj, Fin.le_def] at *
  omega

theorem precedes_total (s t : Sprite) : (precedes s t || precedes t s) = true := by
  simp only [precedes, Bool.or_eq_true, Bool.and_eq_true, decide_eq_true_eq, beq_iff_eq,
    UInt8.lt_iff_toNat_lt, ← UInt8.toNat_inj, Fin.le_def]
  omega

/-- The first ten entries that cross the line, in the order in which they are painted. -/
def scan (table : Vector UInt8 0xA0) (line : Nat) (tall : Bool) : List Sprite :=
  (((List.finRange 40).filterMap (onLine? table line tall)).take 10).mergeSort precedes

def behind (s : Sprite) : Bool := s.flags.toNat.testBit 7
def flipY (s : Sprite) : Bool := s.flags.toNat.testBit 6
def flipX (s : Sprite) : Bool := s.flags.toNat.testBit 5
def secondPalette (s : Sprite) : Bool := s.flags.toNat.testBit 4

/-- The first byte of the row of tile data that the sprite shows. A tall sprite takes two tiles, the
first of them even. -/
def address (s : Sprite) (tall : Bool) : Nat :=
  let tile := if tall then s.tile &&& 0xFE else s.tile
  let row := if s.flipY then height tall - 1 - s.row.val else s.row.val
  tile.toNat * 16 + row * 2

theorem address_lt (s : Sprite) (tall : Bool) : s.address tall + 1 < 0x2000 := by
  have hr := s.row.isLt
  have whole := s.tile.toNat_lt
  have even := (s.tile &&& 0xFE).toNat_lt
  simp only [address, height]
  cases tall <;> cases s.flipY <;> simp only [Bool.false_eq_true, if_true, if_false] <;> omega

/-- The color `column` places from its left edge. -/
def color (s : Sprite) (ram : VideoRam) (tall : Bool) (column : Nat) : Color :=
  have bound := s.address_lt tall
  rowColor ram[s.address tall] ram[s.address tall + 1] (if s.flipX then 7 - column else column)

end Sprite

end DotMatrix
