import DotMatrix.Proofs.Checked.Scanline

namespace DotMatrix

namespace VideoRam

/-- The color of a pixel in the row of tile data that begins at an address. The leftmost pixel has
the highest bit of either byte, and the second byte has the upper bits of the colors. -/
def pixel? (ram : VideoRam) (start column : Nat) : Option Color := do
  let lower ← ram[start]?
  let upper ← ram[start + 1]?
  let bit := 2 ^ (7 - column)
  return Fin.ofNat 4 (upper.toNat / bit % 2 * 2 + lower.toNat / bit % 2)

/-- A pixel of the plane that one of the maps spans, by its column and row. Bit 4 of the control
register tells whether the bytes of the map count the tiles from the first address on, or up and
down from 0x1000. -/
def planePixel? (ram : VideoRam) (control : UInt8) (second : Bool) (x y : Nat) : Option Color := do
  let i ← ram[(if second then 0x1C00 else 0x1800) + y / 8 * 32 + x / 8]?
  let tile := if control.toNat.testBit 4 then 16 * (i.toNat : Int) else 0x1000 + 16 * signedByte i
  ram.pixel? (tile.toNat + y % 8 * 2) (x % 8)

theorem pixel?_eq (ram : VideoRam) {start : Nat} (inside : start + 1 < 0x2000) (column : Nat) :
    ram.pixel? start column = some (rowColor ram[start] ram[start + 1] column) := by
  rw [pixel?, Vector.getElem?_eq_getElem (Nat.lt_of_succ_lt inside),
    Vector.getElem?_eq_getElem inside, rowColor_eq]
  rfl

theorem tileNumber_start (fromFirst : Bool) (i : UInt8) :
    (if fromFirst then 16 * (i.toNat : Int) else 0x1000 + 16 * signedByte i).toNat =
      (tileNumber (!fromFirst) i).val * 16 := by
  have shifted := signedByte_add i
  cases fromFirst <;> simp only [tileNumber, Bool.not_true, Bool.not_false, Bool.false_eq_true,
    if_true, if_false] <;> omega

/-- The pixel of a plane by map and tiles is the color of the plane. -/
theorem planePixel?_eq (ram : VideoRam) (control : UInt8) (second : Bool) (x y : UInt8) :
    ram.planePixel? control second x.toNat y.toNat =
      some (ram.planeColor (!control.toNat.testBit 4) second x y) := by
  have hx := x.toNat_lt
  have hy := y.toNat_lt
  have inside : (if second then 0x1C00 else 0x1800) + y.toNat / 8 * 32 + x.toNat / 8 < 0x2000 := by
    split <;> omega
  have named : ram[(if second then 0x1C00 else 0x1800) + y.toNat / 8 * 32 + x.toNat / 8] =
      ram.mapByte second x y := by
    cases second <;> rfl
  have tile := (tileNumber (!control.toNat.testBit 4) (ram.mapByte second x y)).isLt
  simp only [planePixel?, Vector.getElem?_eq_getElem inside, named, Option.bind_eq_bind,
    Option.bind_some, tileNumber_start]
  exact ram.pixel?_eq (by omega) _

end VideoRam

namespace Scanline

/-- The color of a pixel of the background and the window, where the window shows its line `w` if
it covers the line at all. -/
def plainColor? (r : Latch) (ram : VideoRam) (line w x : Nat) : Option Color :=
  let bit := r.control.toNat.testBit
  if bit 0 = false then some 0
  else if bit 5 ∧ r.windowY.toNat ≤ line ∧ r.windowX.toNat ≤ 166 ∧ r.windowX.toNat ≤ x + 7 then
    ram.planePixel? r.control (bit 6) (x + 7 - r.windowX.toNat) w
  else
    ram.planePixel? r.control (bit 3) ((x + r.scrollX.toNat) % 256) ((line + r.scrollY.toNat) % 256)

variable {r : Latch} {ram : VideoRam} {line x : Nat}

/-- The background wraps around the plane in both directions. -/
theorem background_eq (inside : x < 160) (shown : r.background = true) :
    ram.planePixel? r.control (r.control.toNat.testBit 3) ((x + r.scrollX.toNat) % 256)
        ((line + r.scrollY.toNat) % 256) = some (background r ram line)[x] := by
  rw [← toNat_ofNat_add, ← toNat_ofNat_add, VideoRam.planePixel?_eq, background, shown]
  simp only [if_true, Vector.getElem_ofFn]
  rfl

/-- From its left edge on, the window covers the background. -/
theorem withWindow_of_covered (inside : x < 160) (covered : r.windowX.toNat ≤ x + 7)
    (windowLine : UInt8) (colors : Vector Color 160) :
    ram.planePixel? r.control (r.control.toNat.testBit 6) (x + 7 - r.windowX.toNat)
      windowLine.toNat = some (withWindow r ram windowLine colors)[x] := by
  rw [← toNat_windowColumn inside covered, VideoRam.planePixel?_eq, withWindow, Vector.getElem_ofFn,
    if_pos covered]
  rfl

theorem withWindow_of_left (inside : x < 160) (left : ¬r.windowX.toNat ≤ x + 7)
    (windowLine : UInt8) (colors : Vector Color 160) :
    (withWindow r ram windowLine colors)[x] = colors[x] := by
  rw [withWindow, Vector.getElem_ofFn, if_neg left]
  rfl

/-- The window shows on the lines from its top on, if background and window are asked for and its
left edge is on the screen. -/
theorem windowOn_iff (r : Latch) (line : Nat) : r.windowOn line = true ↔
    r.control.toNat.testBit 0 = true ∧ r.control.toNat.testBit 5 = true ∧
      r.windowY.toNat ≤ line ∧ r.windowX.toNat ≤ 166 := by
  simp only [Latch.windowOn, Latch.background, Latch.window, Bool.and_eq_true, decide_eq_true_eq,
    UInt8.le_iff_toNat_le, and_assoc, UInt8.reduceToNat]

/-- Every pixel has the color that the registers ask for. -/
theorem colors_eq (inside : x < 160) (windowLine : UInt8) :
    plainColor? r ram line windowLine.toNat x = some (colors r ram line windowLine)[x] := by
  have window := windowOn_iff r line
  unfold plainColor? colors
  dsimp only
  cases shown : r.control.toNat.testBit 0 with
  | false =>
    have hidden : r.background = false := shown
    simp [window, shown, background, hidden]
  | true =>
    simp only [shown, true_and] at window
    rw [if_neg (by decide)]
    by_cases on : r.windowOn line = true
    · rw [if_pos on]
      obtain ⟨asked, below, left⟩ := window.mp on
      by_cases covered : r.windowX.toNat ≤ x + 7
      · rw [if_pos ⟨asked, below, left, covered⟩]
        exact withWindow_of_covered inside covered windowLine _
      · rw [if_neg (fun all => covered all.2.2.2), withWindow_of_left inside covered]
        exact background_eq inside shown
    · rw [if_neg on, if_neg (fun all => on (window.mpr ⟨all.1, all.2.1, all.2.2.1⟩))]
      exact background_eq inside shown

/-- Without sprites a line shows its colors through the palette. -/
theorem draw_plain (hidden : r.control.toNat.testBit 1 = false) (inside : x < 160)
    (windowLine : UInt8) (sprites : List Sprite) (tall : Bool) :
    (draw r ram line windowLine sprites tall)[x] =
      shade r.palette (colors r ram line windowLine)[x] := by
  have off : r.sprites = false := hidden
  simp only [draw, off, Bool.false_eq_true, if_false]
  exact Vector.getElem_map _ inside

end Scanline

end DotMatrix
