import DotMatrix.Lcd.Scanline
import DotMatrix.Proofs.Checked.Basic

namespace DotMatrix

open Checked

/-- A palette is shifted until the two bits of the color are its lowest. -/
def checkedShade (palette : UInt8) (c : Color) : Checked Shade := do
  let bits ← shiftRight 8 palette.toNat (← times 8 c.val 2)
  place 4 (bits % 4)

/-- The color of the pixel at bit `n` of the two bytes of a row. -/
def checkedColor (lower upper : UInt8) (n : Nat) : Checked Color := do
  let second ← shiftRight 8 upper.toNat n
  let first ← shiftRight 8 lower.toNat n
  place 4 (second % 2 * 2 + first % 2)

theorem checkedShade_eq (palette : UInt8) (c : Color) :
    checkedShade palette c = .ok (shade palette c) := by
  have few := c.isLt
  rw [checkedShade, times_ok (by omega), ok_bind, shiftRight_ok (by omega), ok_bind,
    place_ok (Nat.mod_lt _ (by decide)), shade, Nat.mul_comm]
  rfl

theorem rowColor_eq (lower upper : UInt8) (column : Nat) :
    rowColor lower upper column = Fin.ofNat 4 (upper.toNat / 2 ^ (7 - column) % 2 * 2 +
      lower.toNat / 2 ^ (7 - column) % 2) := by
  have second := Nat.mod_two_eq_zero_or_one (upper.toNat / 2 ^ (7 - column))
  have first := Nat.mod_two_eq_zero_or_one (lower.toNat / 2 ^ (7 - column))
  simp only [rowColor, Nat.testBit_eq_decide_div_mod_eq]
  rcases second with zero | one <;> rcases first with low | high <;> simp only [*] <;> rfl

theorem checkedColor_eq {n column : Nat} (few : n < 8) (same : 7 - column = n) (lower upper : UInt8) :
    checkedColor lower upper n = .ok (rowColor lower upper column) := by
  rw [checkedColor, shiftRight_ok few, ok_bind, shiftRight_ok few, ok_bind,
    Nat.shiftRight_eq_div_pow, Nat.shiftRight_eq_div_pow, place_ok (by omega), rowColor_eq, same]
  exact congrArg Except.ok (Fin.ext (Nat.mod_eq_of_lt (by omega)).symm)

/-- A byte that counts down from zero in its upper half. -/
def signedByte (b : UInt8) : Int := if b < 0x80 then b.toNat else b.toNat - 256

/-- Counted from 128 on, the signed number of a byte is the byte with its top bit flipped. -/
theorem signedByte_add (b : UInt8) : signedByte b + 128 = ((b + 128).toNat : Nat) := by
  have bound := b.toNat_lt
  have sum : (b + 128).toNat = (b.toNat + 128) % 256 := UInt8.toNat_add _ _
  have lower : b < 0x80 ↔ b.toNat < 128 := UInt8.lt_iff_toNat_lt
  by_cases small : b.toNat < 128
  · rw [signedByte, if_pos (lower.mpr small)]
    omega
  · rw [signedByte, if_neg (mt lower.mp small)]
    omega

namespace VideoRam

/-- The first byte of a tile, by either of the two ways of counting. -/
def checkedTileStart (signedTiles : Bool) (i : UInt8) : Checked Nat := do
  if signedTiles then plus 64 0x800 (← times 64 (← unsigned (← signed (signedByte i + 128))) 16)
  else plus 64 0 (← times 64 i.toNat 16)

/-- A pixel of a plane by its column and its row. -/
def checkedPixel (ram : VideoRam) (signedTiles second : Bool) (x y : Nat) : Checked Color := do
  let map := if second then 0x1C00 else 0x1800
  let i ← place 0x2000 (← plus 64 (← plus 64 map (← times 64 (y / 8) 32)) (x / 8))
  let start ← checkedTileStart signedTiles (ram.get i)
  let bit ← minus 7 (x % 8)
  let row ← plus 64 start (← times 64 (y % 8) 2)
  let lower ← place 0x2000 row
  let upper ← place 0x2000 (← plus 64 row 1)
  checkedColor (ram.get lower) (ram.get upper) bit

theorem checkedTileStart_eq (signedTiles : Bool) (i : UInt8) :
    checkedTileStart signedTiles i = .ok ((tileNumber signedTiles i).val * 16) := by
  cases signedTiles with
  | true =>
    have bound := (i + 128).toNat_lt
    rw [checkedTileStart, if_pos rfl, signedByte_add, signed_ok (by omega) (by omega), ok_bind,
      unsigned_ok (by omega), ok_bind, Int.toNat_natCast, times_ok (by omega), ok_bind,
      plus_ok (by omega), tileNumber, if_pos rfl, Nat.add_mul]
  | false =>
    have bound := i.toNat_lt
    rw [checkedTileStart, if_neg Bool.false_ne_true, times_ok (by omega), ok_bind,
      plus_ok (by omega), tileNumber, if_neg Bool.false_ne_true, Nat.zero_add]

/-- Every column and row of a plane has its byte in the map and its row in a tile. -/
theorem checkedPixel_eq (ram : VideoRam) (signedTiles second : Bool) (x y : UInt8) :
    ram.checkedPixel signedTiles second x.toNat y.toNat =
      .ok (ram.planeColor signedTiles second x y) := by
  have hx := x.toNat_lt
  have hy := y.toNat_lt
  have tile := (tileNumber signedTiles (ram.mapByte second x y)).isLt
  have byte {i : Nat} (h : i < 0x2000) : ram.get ⟨i, h⟩ = ram[i] := rfl
  have map : (if second then 0x1C00 else 0x1800) + y.toNat / 8 * 32 + x.toNat / 8 < 0x2000 := by
    split <;> omega
  have named : ram.get ⟨(if second then 0x1C00 else 0x1800) + y.toNat / 8 * 32 + x.toNat / 8, map⟩ =
      ram.mapByte second x y := by
    cases second <;> rfl
  unfold checkedPixel planeColor tileColor
  dsimp only
  rw [times_ok (by omega), ok_bind, plus_ok (by omega), ok_bind, plus_ok (by omega), ok_bind,
    place_ok map, ok_bind, named, checkedTileStart_eq, ok_bind, minus_ok (by omega), ok_bind,
    times_ok (by omega), ok_bind, plus_ok (by omega), ok_bind, place_ok (by omega), ok_bind,
    plus_ok (by omega), ok_bind, place_ok (by omega), ok_bind, checkedColor_eq (by omega) rfl]
  rfl

end VideoRam

namespace Sprite

/-- An entry of the sprite table is looked at. Its picture begins 16 lines below its position. -/
def checkedOnLine? (table : Vector UInt8 0xA0) (line : Nat) (tall : Bool) (i : Fin 40) :
    Checked (Option Sprite) := do
  let base ← times 64 i.val 4
  let top ← signed ((table.get (← place 0xA0 base)).toNat - 16)
  let bottom ← signed (top + height tall)
  if top ≤ line ∧ line < bottom then
    let x := table.get (← place 0xA0 (← plus 64 base 1))
    let _ ← signed (x.toNat - 8)
    let tile := table.get (← place 0xA0 (← plus 64 base 2))
    let flags := table.get (← place 0xA0 (← plus 64 base 3))
    let row ← place 16 (← unsigned (← signed (line - top)))
    return some { index := i, x, row, tile, flags }
  else return none

/-- The entries are looked at until ten are found. -/
def checkedCollect (table : Vector UInt8 0xA0) (line : Nat) (tall : Bool) :
    List (Fin 40) → List Sprite → Checked (List Sprite)
  | [], found => return found
  | i :: rest, found => do
    if 10 ≤ found.length then return found
    else match ← checkedOnLine? table line tall i with
      | none => checkedCollect table line tall rest found
      | some s =>
        let _ ← place 10 found.length
        let _ ← plus 64 found.length 1
        checkedCollect table line tall rest (found ++ [s])

/-- At most ten sprites are found and put in order. -/
def checkedScan (table : Vector UInt8 0xA0) (line : Nat) (tall : Bool) : Checked (List Sprite) := do
  let found ← checkedCollect table line tall (List.finRange 40) []
  let _ ← stretch 10 0 found.length
  return found.mergeSort precedes

variable {table : Vector UInt8 0xA0} {line : Nat} {tall : Bool}

theorem height_le (tall : Bool) : height tall ≤ 16 := by cases tall <;> decide

/-- The bytes of an entry are in the table, and a sprite that crosses the line has its row in the
picture. -/
theorem checkedOnLine?_eq (i : Fin 40) :
    checkedOnLine? table line tall i = .ok (onLine? table line tall i) := by
  have hi := i.isLt
  have short := height_le tall
  have byte {n : Nat} (h : n < 0xA0) : table.get ⟨n, h⟩ = table[n] := rfl
  have hy : table[i.val * 4].toNat < 2 ^ 8 := UInt8.toNat_lt _
  have entry : (row? table[i.val * 4] line tall).map (fun row => ({
      index := i
      x := table[i.val * 4 + 1]
      row
      tile := table[i.val * 4 + 2]
      flags := table[i.val * 4 + 3] } : Sprite)) = onLine? table line tall i := rfl
  unfold checkedOnLine?
  dsimp only
  rw [← entry, row?, times_ok (by omega), ok_bind, place_ok (by omega), ok_bind, byte,
    signed_ok (by omega) (by omega), ok_bind, signed_ok (by omega) (by omega), ok_bind]
  by_cases crosses : table[i.val * 4].toNat ≤ line + 16 ∧
      line + 16 < table[i.val * 4].toNat + height tall
  · have hx : table[i.val * 4 + 1].toNat < 2 ^ 8 := UInt8.toNat_lt _
    have row : ((line : Int) - (table[i.val * 4].toNat - 16)).toNat =
      line + 16 - table[i.val * 4].toNat := by omega
    rw [dif_pos crosses, if_pos (by omega), plus_ok (by omega), ok_bind, place_ok (by omega),
      ok_bind, byte, signed_ok (by omega) (by omega), ok_bind, plus_ok (by omega), ok_bind,
      place_ok (by omega), ok_bind, plus_ok (by omega), ok_bind, place_ok (by omega), ok_bind,
      signed_ok (by omega) (by omega), ok_bind, unsigned_ok (by omega), ok_bind,
      place_ok (by omega), ok_bind]
    simp only [row]
    rfl
  · rw [dif_neg crosses, if_neg (by omega)]
    rfl

/-- No more than ten entries are kept, and all that are fit in their places. -/
theorem checkedCollect_eq (entries : List (Fin 40)) {found : List Sprite}
    (few : found.length ≤ 10) :
    checkedCollect table line tall entries found =
      .ok (found ++ (entries.filterMap (onLine? table line tall)).take (10 - found.length)) := by
  induction entries generalizing found with
  | nil => simp only [checkedCollect, List.filterMap_nil, List.take_nil, List.append_nil, pure_eq]
  | cons i rest ih =>
    unfold checkedCollect
    by_cases full : 10 ≤ found.length
    · rw [if_pos full, Nat.sub_eq_zero_of_le full, List.take_zero, List.append_nil, pure_eq]
    rw [if_neg full, checkedOnLine?_eq, ok_bind]
    cases crossing : onLine? table line tall i with
    | none => rw [List.filterMap_cons_none crossing, ← ih few]
    | some s =>
      have room : 10 - found.length = 10 - (found ++ [s]).length + 1 := by
        rw [List.length_append, List.length_singleton]
        omega
      have kept : (found ++ [s]).length ≤ 10 := by
        rw [List.length_append, List.length_singleton]
        omega
      rw [List.filterMap_cons_some crossing, room, List.take_succ_cons, List.append_cons, ← ih kept]
      dsimp only
      rw [place_ok (by omega), ok_bind, plus_ok (by omega), ok_bind]

theorem checkedScan_eq : checkedScan table line tall = .ok (scan table line tall) := by
  have collected : checkedCollect table line tall (List.finRange 40) [] =
      .ok (((List.finRange 40).filterMap (onLine? table line tall)).take 10) :=
    checkedCollect_eq _ (Nat.zero_le 10)
  rw [checkedScan, collected, ok_bind, stretch_ok (Nat.zero_le _) (List.length_take_le _ _)]
  rfl

/-- What is known of the sprites of a line. -/
structure Chosen (sprites : List Sprite) (tall : Bool) : Prop where
  few : sprites.length ≤ 10
  rows : ∀ s ∈ sprites, s.row.val < height tall

/-- A scan finds at most ten sprites, on rows of their pictures. -/
theorem chosen_scan : Chosen (scan table line tall) tall where
  few := by
    rw [scan, List.length_mergeSort]
    exact List.length_take_le _ _
  rows s member := by
    rw [scan, List.mem_mergeSort] at member
    obtain ⟨i, -, crossing⟩ := List.mem_filterMap.mp (List.mem_of_mem_take member)
    unfold onLine? row? at crossing
    obtain ⟨row, within, rfl⟩ := Option.map_eq_some_iff.mp crossing
    split at within
    · rename_i crosses
      obtain rfl := Option.some.inj within
      dsimp only
      omega
    · cases within

/-- A picture that stands on its head is read from its last row on. -/
def checkedAddress (s : Sprite) (tall : Bool) : Checked Nat := do
  let tile := if tall then s.tile &&& 0xFE else s.tile
  let row ← if s.flipY then do signed ((← signed (height tall - 1)) - s.row.val) else pure s.row.val
  plus 64 (← times 64 tile.toNat 16) (← times 64 (← unsigned row) 2)

theorem checkedAddress_eq {s : Sprite} (row : s.row.val < height tall) :
    s.checkedAddress tall = .ok (s.address tall) := by
  have short := height_le tall
  have bound := (if tall then s.tile &&& 0xFE else s.tile).toNat_lt
  unfold checkedAddress address
  dsimp only
  generalize (if tall then s.tile &&& 0xFE else s.tile) = tile at bound ⊢
  cases s.flipY with
  | true =>
    have last : ((height tall : Int) - 1 - s.row.val).toNat = height tall - 1 - s.row.val := by omega
    rw [if_pos rfl, if_pos rfl, signed_ok (by omega) (by omega), ok_bind,
      signed_ok (by omega) (by omega), ok_bind, unsigned_ok (by omega), times_ok (by omega), ok_bind,
      ok_bind, last, times_ok (by omega), ok_bind, plus_ok (by omega)]
  | false =>
    rw [if_neg Bool.false_ne_true, if_neg Bool.false_ne_true, pure_eq, ok_bind,
      unsigned_ok (by omega), times_ok (by omega), ok_bind, ok_bind, Int.toNat_natCast,
      times_ok (by omega), ok_bind, plus_ok (by omega)]

/-- The bit that a column of the picture shows. -/
def checkedBit (s : Sprite) (column : Nat) : Checked Nat :=
  if s.flipX then return column else minus 7 column

/-- A column of a picture is one of eight bits, from either side. -/
theorem checkedBit_eq {s : Sprite} {column : Nat} (inside : column < 8) :
    s.checkedBit column = .ok (7 - if s.flipX then 7 - column else column) := by
  unfold checkedBit
  split_ifs
  · rw [pure_eq, Nat.sub_sub_self (Nat.le_of_lt_succ inside)]
  · exact minus_ok (Nat.le_of_lt_succ inside)

end Sprite

namespace Scanline

/-- The background of a line, which wraps around the plane. -/
def checkedBackground (r : Latch) (ram : VideoRam) (line : Nat) : Checked (Vector Color 160) :=
  if r.background then do
    let y := (← plus 64 line r.scrollY.toNat) % 0x100
    Vector.ofFnM fun x => do
      let column := (← plus 64 x.val r.scrollX.toNat) % 0x100
      ram.checkedPixel r.signedTiles r.backgroundMap column y
  else return Vector.replicate 160 0

/-- The window's left edge may lie off the screen. -/
def checkedWindow (r : Latch) (ram : VideoRam) (y : UInt8) (colors : Vector Color 160) :
    Checked (Vector Color 160) := do
  let left ← signed (r.windowX.toNat - 7)
  let first ← unsigned (max left 0)
  Vector.ofFnM fun x => do
    if first ≤ x.val then
      let column ← unsigned (← signed (x.val - left))
      ram.checkedPixel r.signedTiles r.windowMap column y.toNat
    else return colors.get x

/-- The background, and the window over it where it shows. -/
def checkedColors (r : Latch) (ram : VideoRam) (line : Nat) (windowLine : UInt8) :
    Checked (Vector Color 160) := do
  let colors ← checkedBackground r ram line
  if r.windowOn line then checkedWindow r ram windowLine colors else return colors

/-- A pixel among those of a frame, whose rows follow each other. -/
def framePlace (line column : Nat) : Checked (Fin 23040) := do
  place 23040 (← plus 64 (← times 64 line 160) column)

/-- The shades of a line, each put at its place in the frame. -/
def checkedShades (r : Latch) (line : Nat) (colors : Vector Color 160) : Checked Row := do
  let start ← times 64 line 160
  let _ ← stretch 23040 start (← plus 64 start 160)
  Vector.ofFnM fun x => do
    let shade ← checkedShade r.palette (colors.get x)
    let _ ← framePlace line x.val
    let _ ← place 160 x.val
    return shade

/-- A pixel of a sprite, unless it is off the screen, taken or hidden. -/
def checkedPaintPixel (r : Latch) (colors : Vector Color 160) (line : Nat) (lower upper : UInt8)
    (s : Sprite) (canvas : Canvas) (column : Nat) : Checked Canvas := do
  let color ← checkedColor lower upper (← s.checkedBit column)
  if color = 0 then return canvas
  let x ← signed ((← signed (s.x.toNat - 8)) + column)
  if 0 ≤ x ∧ x < 160 then
    let i ← place 160 (← unsigned x)
    if canvas.claimed.get i then return canvas
    let canvas := { canvas with claimed := ← put canvas.claimed i true }
    if s.behind && colors.get i != 0 then return canvas
    let palette := if s.secondPalette then r.spritePalette1 else r.spritePalette0
    let shade ← checkedShade palette color
    let _ ← framePlace line i.val
    return { canvas with shades := ← put canvas.shades i shade }
  else return canvas

/-- The eight pixels of a sprite, from the two bytes of its row. -/
def checkedPaintSprite (r : Latch) (ram : VideoRam) (tall : Bool) (colors : Vector Color 160)
    (line : Nat) (canvas : Canvas) (s : Sprite) : Checked Canvas := do
  let address ← s.checkedAddress tall
  let lower ← place 0x2000 address
  let upper ← place 0x2000 (← plus 64 address 1)
  (List.range 8).foldlM (checkedPaintPixel r colors line (ram.get lower) (ram.get upper) s) canvas

/-- A line, plane first and sprites over it. -/
def checkedDraw (r : Latch) (ram : VideoRam) (line : Nat) (windowLine : UInt8)
    (sprites : List Sprite) (tall : Bool) : Checked Row := do
  let colors ← checkedColors r ram line windowLine
  let shades ← checkedShades r line colors
  if r.sprites then
    let _ ← stretch 10 0 sprites.length
    let canvas ← sprites.foldlM (checkedPaintSprite r ram tall colors line)
      ⟨shades, Vector.replicate 160 false⟩
    return canvas.shades
  else return shades

variable {r : Latch} {ram : VideoRam} {line : Nat} {tall : Bool} {colors : Vector Color 160}

theorem toNat_ofNat_add (n : Nat) (scroll : UInt8) :
    (UInt8.ofNat n + scroll).toNat = (n + scroll.toNat) % 256 := by
  rw [UInt8.toNat_add, UInt8.toNat_ofNat', Nat.mod_add_mod]

/-- Every scrolled coordinate is one of the plane. -/
theorem checkedBackground_eq (shown : line < 144) :
    checkedBackground r ram line = .ok (background r ram line) := by
  have vertical := r.scrollY.toNat_lt
  have horizontal := r.scrollX.toNat_lt
  unfold checkedBackground background
  split_ifs
  · rw [plus_ok (by omega), ok_bind]
    refine ofFnM_ok fun x => ?_
    rw [plus_ok (by omega), ok_bind]
    dsimp only
    rw [← toNat_ofNat_add, ← toNat_ofNat_add, VideoRam.checkedPixel_eq]
  · rfl

/-- The window is entered seven columns left of its position. -/
theorem toNat_windowColumn {x : Nat} (inside : x < 160) (covered : r.windowX.toNat ≤ x + 7) :
    (UInt8.ofNat (x + 7) - r.windowX).toNat = x + 7 - r.windowX.toNat := by
  have low : (UInt8.ofNat (x + 7)).toNat = x + 7 := by
    rw [UInt8.toNat_ofNat']
    omega
  have order : r.windowX ≤ UInt8.ofNat (x + 7) := by
    rwa [UInt8.le_iff_toNat_le, low]
  rw [UInt8.toNat_sub_of_le _ _ order, low]

/-- Right of its left edge, the window has a column for each pixel. -/
theorem checkedWindow_eq (y : UInt8) :
    checkedWindow r ram y colors = .ok (withWindow r ram y colors) := by
  have position := r.windowX.toNat_lt
  rw [checkedWindow, signed_ok (by omega) (by omega), ok_bind, unsigned_ok (by omega), ok_bind]
  refine ofFnM_ok fun x => ?_
  have bound := x.isLt
  by_cases covered : r.windowX.toNat ≤ x.val + 7
  · have column : ((x.val : Int) - (r.windowX.toNat - 7)).toNat =
        (UInt8.ofNat (x.val + 7) - r.windowX).toNat := by
      rw [toNat_windowColumn bound covered]
      omega
    rw [if_pos (by omega), if_pos covered, signed_ok (by omega) (by omega), ok_bind,
      unsigned_ok (by omega), ok_bind, column, VideoRam.checkedPixel_eq]
  · rw [if_neg (by omega), if_neg covered, pure_eq]

theorem checkedColors_eq (shown : line < 144) (windowLine : UInt8) :
    checkedColors r ram line windowLine = .ok (Scanline.colors r ram line windowLine) := by
  rw [checkedColors, checkedBackground_eq shown, ok_bind, checkedWindow_eq, pure_eq,
    Scanline.colors]
  split_ifs <;> rfl

theorem framePlace_ok (shown : line < 144) {column : Nat} (inside : column < 160) :
    framePlace line column = .ok ⟨line * 160 + column, by omega⟩ := by
  rw [framePlace, times_ok (by omega), ok_bind, plus_ok (by omega), ok_bind, place_ok (by omega)]

theorem checkedShades_eq (shown : line < 144) :
    checkedShades r line colors = .ok (colors.map (shade r.palette)) := by
  have each : colors.map (shade r.palette) = Vector.ofFn fun x => shade r.palette (colors.get x) := by
    ext i h
    rw [Vector.getElem_map, Vector.getElem_ofFn]
    rfl
  rw [checkedShades, times_ok (by omega), ok_bind, plus_ok (by omega), ok_bind,
    stretch_ok (by omega) (by omega), ok_bind, each]
  refine ofFnM_ok fun x => ?_
  rw [checkedShade_eq, ok_bind, framePlace_ok shown x.isLt, ok_bind, place_ok x.isLt, ok_bind, pure_eq]

/-- A pixel is painted only on the screen, where it has its places. -/
theorem checkedPaintPixel_eq (shown : line < 144) (s : Sprite) (canvas : Canvas) {column : Nat}
    (inside : column < 8) :
    checkedPaintPixel r colors line (ram.get ⟨s.address tall, Nat.lt_of_succ_lt (s.address_lt tall)⟩)
        (ram.get ⟨s.address tall + 1, s.address_lt tall⟩) s canvas column =
      .ok (paintPixel r ram tall colors s canvas column) := by
  have position := s.x.toNat_lt
  have colored : checkedColor (ram.get ⟨s.address tall, Nat.lt_of_succ_lt (s.address_lt tall)⟩)
      (ram.get ⟨s.address tall + 1, s.address_lt tall⟩) (7 - if s.flipX then 7 - column else column) =
      .ok (s.color ram tall column) :=
    checkedColor_eq (Nat.lt_succ_of_le (Nat.sub_le _ _)) rfl _ _
  unfold checkedPaintPixel paintPixel
  rw [Sprite.checkedBit_eq inside, ok_bind, colored, ok_bind]
  dsimp only
  generalize s.color ram tall column = color
  by_cases blank : color = 0
  · rw [if_pos blank, pure_eq]
    simp only [blank, decide_true, Bool.true_or, if_true, dite_eq_ite, ite_self]
  rw [if_neg blank, signed_ok (by omega) (by omega), ok_bind, signed_ok (by omega) (by omega), ok_bind]
  by_cases visible : 8 ≤ s.x.toNat + column ∧ s.x.toNat + column < 168
  · have left : ((s.x.toNat : Int) - 8 + column).toNat = s.x.toNat + column - 8 := by omega
    have entry {α : Type} (v : Vector α 160) (h : s.x.toNat + column - 8 < 160) :
        v.get ⟨s.x.toNat + column - 8, h⟩ = v[s.x.toNat + column - 8] := rfl
    have within : s.x.toNat + column - 8 < 160 := by omega
    have set {α : Type} (v : Vector α 160) (a : α) := put_ok v a within
    have framed := framePlace_ok shown within
    rw [if_pos (by omega), dif_pos visible, unsigned_ok (by omega), ok_bind, left, place_ok within,
      ok_bind]
    simp only [entry, set, blank, decide_false, Bool.false_or, checkedShade_eq, framed, ok_bind,
      pure_eq]
    split_ifs <;> rfl
  · rw [if_neg (by omega), dif_neg visible, pure_eq]

theorem checkedPaintSprite_eq (shown : line < 144) {s : Sprite} (row : s.row.val < Sprite.height tall)
    (canvas : Canvas) :
    checkedPaintSprite r ram tall colors line canvas s = .ok (paintSprite r ram tall colors canvas s) := by
  have bound := s.address_lt tall
  rw [checkedPaintSprite, Sprite.checkedAddress_eq row, ok_bind, place_ok (by omega), ok_bind,
    plus_ok (by omega), ok_bind, place_ok bound, ok_bind]
  exact foldlM_ok (fun column member canvas =>
    checkedPaintPixel_eq shown s canvas (List.mem_range.mp member)) canvas

/-- A line of the screen is drawn without leaving the frame, the tables or the video RAM, whatever
the registers, the RAM and the sprites hold. -/
theorem checkedDraw_eq (shown : line < 144) {sprites : List Sprite} (chosen : Sprite.Chosen sprites tall)
    (windowLine : UInt8) :
    checkedDraw r ram line windowLine sprites tall =
      .ok (draw r ram line windowLine sprites tall) := by
  rw [checkedDraw, checkedColors_eq shown, ok_bind, checkedShades_eq shown, ok_bind,
    stretch_ok (Nat.zero_le _) chosen.few, ok_bind,
    foldlM_ok (fun s member canvas => checkedPaintSprite_eq shown (chosen.rows s member) canvas), draw]
  split_ifs <;> rfl

end Scanline

end DotMatrix
