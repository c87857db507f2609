import DotMatrix.Proofs.Bus.Access
import DotMatrix.Proofs.Lcd.Plane
import DotMatrix.Lcd.Step
import Mathlib.Data.List.MinMax
import Mathlib.Data.Prod.Lex

namespace DotMatrix

/-- An entry of the sprite table, four bytes at an index. -/
structure SpriteEntry where
  index : Fin 40
  y : UInt8
  x : UInt8
  tile : UInt8
  flags : UInt8

namespace SpriteEntry

theorem place_lt (i : Fin 40) (n : Fin 4) : i.val * 4 + n.val < 0xA0 := by omega

/-- A byte of an entry. -/
def byte (table : Vector UInt8 0xA0) (i : Fin 40) (n : Fin 4) : UInt8 :=
  table.get ⟨i.val * 4 + n.val, place_lt i n⟩

/-- The entry at an index of the table. -/
def ofTable (table : Vector UInt8 0xA0) (i : Fin 40) : SpriteEntry where
  index := i
  y := byte table i 0
  x := byte table i 1
  tile := byte table i 2
  flags := byte table i 3

/-- Whether its rows contain a line. The first is 16 lines above its position. -/
def crosses (e : SpriteEntry) (line : Nat) (tall : Bool) : Bool :=
  let top : Int := e.y.toNat - 16
  decide (top ≤ line ∧ line < top + Sprite.height tall)

/-- The color that it has in a column of a line that it crosses, if that is not zero. -/
def shown? (e : SpriteEntry) (ram : VideoRam) (tall : Bool) (line x : Nat) : Option Color :=
  let column : Int := x - (e.x.toNat - 8)
  let row : Int := line - (e.y.toNat - 16)
  if 0 ≤ column ∧ column < 8 then
    let column := if e.flags.toNat.testBit 5 then 7 - column else column
    let row := if e.flags.toNat.testBit 6 then Sprite.height tall - 1 - row else row
    let tile := if tall then e.tile &&& 0xFE else e.tile
    (ram.pixel? (tile.toNat * 16 + row.toNat * 2) column.toNat).filter (· ≠ 0)
  else none

/-- The first ten entries that cross a line. -/
def chosen (table : Vector UInt8 0xA0) (line : Nat) (tall : Bool) : List SpriteEntry :=
  (((List.finRange 40).map (ofTable table)).filter (·.crosses line tall)).take 10

/-- An entry with its color in a column, if it shows one there. -/
def spot? (ram : VideoRam) (tall : Bool) (line x : Nat) (e : SpriteEntry) :
    Option (SpriteEntry × Color) :=
  (e.shown? ram tall line x).map (e, ·)

/-- The entry further left is in front of the other, and of two at one place that of the lower
index. -/
def rank (e : SpriteEntry) : Nat ×ₗ Nat := toLex (e.x.toNat, e.index.val)

/-- The chosen entry that is seen in a column, with its color: the foremost of those that show one
there. -/
def seen? (table : Vector UInt8 0xA0) (ram : VideoRam) (tall : Bool) (line x : Nat) :
    Option (SpriteEntry × Color) :=
  ((chosen table line tall).filterMap (spot? ram tall line x)).argmin fun s => s.1.rank

/-- The shade of a pixel where the background has the color `plain`. -/
def shadeOver (r : Latch) (plain : Color) : Option (SpriteEntry × Color) → Shade
  | none => shade r.palette plain
  | some (e, c) =>
    if e.flags.toNat.testBit 7 ∧ plain ≠ 0 then shade r.palette plain
    else shade (if e.flags.toNat.testBit 4 then r.spritePalette1 else r.spritePalette0) c

end SpriteEntry

/-- A list in order begins with the least element of any list with the same elements, if no two
have the same key. -/
theorem head?_eq_argmin {α β : Type} [LinearOrder β] {key : α → β} {l sorted : List α}
    (perm : sorted.Perm l) (order : sorted.Pairwise (key · ≤ key ·))
    (distinct : ∀ a ∈ l, ∀ b ∈ l, key a = key b → a = b) : sorted.head? = l.argmin key := by
  cases sorted with
  | nil =>
    rw [List.nil_perm.mp perm]
    rfl
  | cons a rest =>
    have member : a ∈ l := perm.subset List.mem_cons_self
    cases least : l.argmin key with
    | none =>
      rw [List.argmin_eq_none.mp least] at member
      cases member
    | some m =>
      have isLeast : key m ≤ key a := List.le_of_mem_argmin member least
      have among : m ∈ a :: rest := perm.symm.subset (List.argmin_mem least)
      have first : key a ≤ key m := by
        rcases List.mem_cons.mp among with rfl | later
        · exact le_rfl
        · exact (List.pairwise_cons.mp order).1 m later
      rw [List.head?_cons, distinct a member m (List.argmin_mem least) (le_antisymm first isLeast)]

namespace Scanline

/-- One pixel of the line. -/
def Canvas.pixel (canvas : Canvas) {x : Nat} (inside : x < 160) : Bool × Shade :=
  (canvas.claimed[x], canvas.shades[x])

/-- What a sprite that has color `c` on a pixel makes of it, where the background has the color
`plain`. -/
def dab (r : Latch) (plain : Color) (s : Sprite) (c : Color) (pixel : Bool × Shade) :
    Bool × Shade :=
  if c = 0 || pixel.1 then pixel
  else (true, if s.behind && plain != 0 then pixel.2
    else shade (if s.secondPalette then r.spritePalette1 else r.spritePalette0) c)

/-- A sprite with a color on a pixel claims it, even where it hides behind the background. -/
theorem dab_claims (r : Latch) (plain : Color) (s : Sprite) {c : Color} (visible : c ≠ 0)
    (pixel : Bool × Shade) : (dab r plain s c pixel).1 = true := by
  unfold dab
  split
  · rename_i kept
    simpa [visible] using kept
  · rfl

/-- A pixel that is claimed is not painted again. -/
theorem dab_of_claimed {r : Latch} {plain c : Color} {pixel : Bool × Shade} (s : Sprite)
    (claimed : pixel.1 = true) : dab r plain s c pixel = pixel := by
  rw [dab, claimed, Bool.or_true, if_pos rfl]

theorem dab_zero (r : Latch) (plain : Color) (s : Sprite) (pixel : Bool × Shade) :
    dab r plain s 0 pixel = pixel := by
  rw [dab, decide_eq_true rfl, Bool.true_or, if_pos rfl]

variable {r : Latch} {ram : VideoRam} {tall : Bool} {colors : Vector Color 160} {x : Nat}

/-- A column of a sprite falls on one pixel of the line, or beside the screen. -/
theorem paintPixel_pixel (inside : x < 160) (s : Sprite) (canvas : Canvas) (column : Nat) :
    (paintPixel r ram tall colors s canvas column).pixel inside =
      if s.x.toNat + column = x + 8 then
        dab r colors[x] s (s.color ram tall column) (canvas.pixel inside)
      else canvas.pixel inside := by
  unfold paintPixel
  dsimp only
  generalize s.color ram tall column = c
  by_cases here : s.x.toNat + column = x + 8
  · obtain rfl : x = s.x.toNat + column - 8 := by omega
    have claimed : (canvas.pixel inside).1 = canvas.claimed[s.x.toNat + column - 8] := rfl
    rw [if_pos here, dif_pos (by omega), dab, claimed]
    split_ifs
    · rfl
    · exact Prod.ext (Vector.getElem_set_self _) rfl
    all_goals exact Prod.ext (Vector.getElem_set_self _) (Vector.getElem_set_self _)
  · rw [if_neg here]
    by_cases visible : 8 ≤ s.x.toNat + column ∧ s.x.toNat + column < 168
    · have apart : s.x.toNat + column - 8 ≠ x := by omega
      have within : s.x.toNat + column - 8 < 160 := by omega
      rw [dif_pos visible]
      split_ifs
      · rfl
      · exact Prod.ext (Vector.getElem_set_ne within inside apart) rfl
      all_goals
        exact Prod.ext (Vector.getElem_set_ne within inside apart)
          (Vector.getElem_set_ne within inside apart)
    · rw [dif_neg visible]

/-- The first `n` columns of a sprite reach as many pixels in a row. -/
theorem paintColumns_pixel (inside : x < 160) (s : Sprite) (canvas : Canvas) (n : Nat) :
    ((List.range n).foldl (paintPixel r ram tall colors s) canvas).pixel inside =
      if s.x.toNat ≤ x + 8 ∧ x + 8 < s.x.toNat + n then
        dab r colors[x] s (s.color ram tall (x + 8 - s.x.toNat)) (canvas.pixel inside)
      else canvas.pixel inside := by
  induction n with
  | zero => rw [if_neg (by omega), List.range_zero, List.foldl_nil]
  | succ n ih =>
    rw [List.range_succ, List.foldl_append, List.foldl_cons, List.foldl_nil,
      paintPixel_pixel inside, ih]
    by_cases here : s.x.toNat + n = x + 8
    · have column : x + 8 - s.x.toNat = n := by omega
      rw [if_pos here, if_neg (by omega), if_pos (by omega), column]
    · rw [if_neg here]
      by_cases before : s.x.toNat ≤ x + 8 ∧ x + 8 < s.x.toNat + n
      · rw [if_pos before, if_pos (by omega)]
      · rw [if_neg before, if_neg (by omega)]

/-- The color that a sprite paints on a pixel, zero where it does not reach. -/
def colorAt (ram : VideoRam) (tall : Bool) (x : Nat) (s : Sprite) : Color :=
  if s.x.toNat ≤ x + 8 ∧ x + 8 < s.x.toNat + 8 then s.color ram tall (x + 8 - s.x.toNat) else 0

theorem paintSprite_pixel (inside : x < 160) (canvas : Canvas) (s : Sprite) :
    (paintSprite r ram tall colors canvas s).pixel inside =
      dab r colors[x] s (colorAt ram tall x s) (canvas.pixel inside) := by
  rw [paintSprite, paintColumns_pixel inside, colorAt]
  split_ifs
  · rfl
  · rw [dab_zero]

/-- The first sprite with a color on a pixel decides it. Those after it find it claimed. -/
theorem paint_pixel (inside : x < 160) (sprites : List Sprite) (canvas : Canvas) :
    (sprites.foldl (paintSprite r ram tall colors) canvas).pixel inside =
      match sprites.find? (fun s => colorAt ram tall x s != 0) with
      | none => canvas.pixel inside
      | some s => dab r colors[x] s (colorAt ram tall x s) (canvas.pixel inside) := by
  induction sprites generalizing canvas with
  | nil => rfl
  | cons s rest ih =>
    rw [List.foldl_cons, ih, paintSprite_pixel inside]
    by_cases blank : colorAt ram tall x s = 0
    · rw [List.find?_cons_of_neg (by simp [blank]), blank, dab_zero]
    · rw [List.find?_cons_of_pos (by simp [blank])]
      have claimed := dab_claims r colors[x] s blank (canvas.pixel inside)
      split
      · rfl
      · exact dab_of_claimed _ claimed

end Scanline

open SpriteEntry

/-- The sprite is what an entry shows on a line. -/
structure Sprite.Pictures (s : Sprite) (e : SpriteEntry) (line : Nat) (tall : Bool) : Prop where
  index : s.index = e.index
  x : s.x = e.x
  tile : s.tile = e.tile
  flags : s.flags = e.flags
  row : s.row.val + e.y.toNat = line + 16
  above : s.row.val < height tall

namespace Sprite

variable {table : Vector UInt8 0xA0} {line : Nat} {tall : Bool}

/-- An entry crosses a line within its height, in numbers without a sign. -/
theorem crosses_iff {e : SpriteEntry} : e.crosses line tall = true ↔
    e.y.toNat ≤ line + 16 ∧ line + 16 < e.y.toNat + height tall := by
  rw [SpriteEntry.crosses, decide_eq_true_iff]
  omega

/-- The entry at an index makes a sprite if it crosses the line. -/
theorem pictures_of_onLine? {i : Fin 40} {s : Sprite} (found : onLine? table line tall i = some s) :
    s.index = i ∧ (ofTable table i).crosses line tall = true ∧
      s.Pictures (ofTable table i) line tall := by
  have hi := i.isLt
  obtain ⟨row, within, rfl⟩ := Option.map_eq_some_iff.mp found
  unfold row? at within
  split at within
  · rename_i crosses
    obtain rfl := Option.some.inj within
    refine ⟨rfl, crosses_iff.mpr crosses, rfl, rfl, rfl, rfl, Nat.sub_add_cancel crosses.1, ?_⟩
    dsimp only
    omega
  · cases within

/-- An entry makes a sprite exactly if it crosses the line. -/
theorem onLine?_map (i : Fin 40) :
    (onLine? table line tall i).map (fun s => ofTable table s.index) =
      Option.guard (·.crosses line tall) (ofTable table i) := by
  cases found : onLine? table line tall i with
  | none =>
    have hi := i.isLt
    have passes : ¬(ofTable table i).crosses line tall = true := by
      intro crosses
      have within : table[i.val * 4].toNat ≤ line + 16 ∧
        line + 16 < table[i.val * 4].toNat + height tall := crosses_iff.mp crosses
      rw [onLine?, row?, dif_pos within] at found
      cases found
    rw [Option.guard, if_neg passes]
    rfl
  | some s =>
    obtain ⟨index, crosses, -⟩ := pictures_of_onLine? found
    rw [Option.guard, if_pos crosses, Option.map_some, index]

/-- The scan takes the first ten sprites and puts them in order. -/
theorem scan_perm : (scan table line tall).Perm
    (((List.finRange 40).filterMap (onLine? table line tall)).take 10) :=
  List.mergeSort_perm _ _

theorem pictures_of_mem_scan {s : Sprite} (member : s ∈ scan table line tall) :
    s.Pictures (ofTable table s.index) line tall := by
  obtain ⟨i, -, found⟩ := List.mem_filterMap.mp (List.mem_of_mem_take (scan_perm.subset member))
  obtain ⟨rfl, -, pictures⟩ := pictures_of_onLine? found
  exact pictures

/-- The sprites that the scan finds are those of the chosen entries, in another order. -/
theorem scan_chosen : ((scan table line tall).map fun s => ofTable table s.index).Perm
    (chosen table line tall) := by
  have same : ((List.finRange 40).filterMap (onLine? table line tall)).map
      (fun s => ofTable table s.index) =
        ((List.finRange 40).map (ofTable table)).filter (·.crosses line tall) := by
    rw [List.map_filterMap, ← List.filterMap_eq_filter, List.filterMap_map]
    exact List.filterMap_congr fun i _ => onLine?_map i
  rw [chosen, ← same, ← List.map_take]
  exact scan_perm.map _

variable {s : Sprite} {e : SpriteEntry}

/-- A sprite that stands on its head is read from its last row on. -/
theorem Pictures.address (pictures : s.Pictures e line tall) :
    (if tall then e.tile &&& 0xFE else e.tile).toNat * 16 +
        (if e.flags.toNat.testBit 6 then (height tall : Int) - 1 - (line - (e.y.toNat - 16))
          else line - (e.y.toNat - 16)).toNat * 2 = s.address tall := by
  have row := pictures.row
  have above := pictures.above
  rw [Sprite.address, flipY, pictures.tile, pictures.flags]
  congr 2
  split <;> omega

/-- What an entry shows in a column is the color that its sprite paints there. -/
theorem Pictures.shown? (pictures : s.Pictures e line tall) (ram : VideoRam) (x : Nat) :
    e.shown? ram tall line x = if Scanline.colorAt ram tall x s = 0 then none
      else some (Scanline.colorAt ram tall x s) := by
  rw [SpriteEntry.shown?, Scanline.colorAt, pictures.x]
  by_cases within : e.x.toNat ≤ x + 8 ∧ x + 8 < e.x.toNat + 8
  · have column : (if e.flags.toNat.testBit 5 then 7 - ((x : Int) - (e.x.toNat - 8))
        else x - (e.x.toNat - 8)).toNat =
          if s.flipX then 7 - (x + 8 - e.x.toNat) else x + 8 - e.x.toNat := by
      rw [flipX, pictures.flags]
      split <;> omega
    rw [if_pos within, if_pos (by omega)]
    dsimp only
    rw [pictures.address, column, ram.pixel?_eq (s.address_lt tall)]
    simp only [Option.filter_some, decide_eq_true_eq, ne_eq, ite_not]
    rfl
  · rw [if_neg within, if_neg (by omega), if_pos rfl]

end Sprite

namespace SpriteEntry

variable {table : Vector UInt8 0xA0} {ram : VideoRam} {line x : Nat} {tall : Bool}

/-- No two entries have the same rank, for their indices differ. -/
theorem rank_ofTable_inj {i j : Fin 40} (same : (ofTable table i).rank = (ofTable table j).rank) :
    i = j := by
  have indices : (i.val : Nat) = j.val := congrArg (fun k => (ofLex k).2) same
  exact Fin.ext indices

/-- The sprites are in the order in which the entries are preferred. -/
theorem scan_pairwise : ((Sprite.scan table line tall).map fun s => ofTable table s.index).Pairwise
    fun e f => e.rank ≤ f.rank := by
  have order : (Sprite.scan table line tall).Pairwise fun s t => Sprite.precedes s t = true := by
    apply List.pairwise_mergeSort
    · exact fun _ _ _ => Sprite.precedes_trans
    · exact Sprite.precedes_total
  rw [List.pairwise_map]
  refine order.imp_of_mem fun {s t} hs ht before => ?_
  have left := (Sprite.pictures_of_mem_scan hs).x
  have right := (Sprite.pictures_of_mem_scan ht).x
  simp only [Sprite.precedes, Bool.or_eq_true, Bool.and_eq_true, decide_eq_true_eq, beq_iff_eq,
    UInt8.lt_iff_toNat_lt, ← UInt8.toNat_inj, Fin.le_def] at before
  rw [rank, rank, Prod.Lex.toLex_le_toLex, ← left, ← right]
  exact before

/-- Every color that competes for a column is that of an entry of the table. -/
theorem exists_of_mem_spots {a : SpriteEntry × Color}
    (spotted : a ∈ (chosen table line tall).filterMap (spot? ram tall line x)) :
    ∃ i, a.1 = ofTable table i ∧ a.1.shown? ram tall line x = some a.2 := by
  obtain ⟨e, member, shows⟩ := List.mem_filterMap.mp spotted
  obtain ⟨i, -, entry⟩ := List.mem_map.mp (List.mem_filter.mp (List.mem_of_mem_take member)).1
  obtain ⟨c, shown, rfl⟩ := Option.map_eq_some_iff.mp shows
  exact ⟨i, entry.symm, shown⟩

/-- The first of the sprites that shows a color is the entry that is seen. -/
theorem findSome?_scan :
    ((Sprite.scan table line tall).map fun s => ofTable table s.index).findSome?
      (spot? ram tall line x) = seen? table ram tall line x := by
  rw [← List.head?_filterMap]
  refine head?_eq_argmin (Sprite.scan_chosen.filterMap _) ?_ ?_
  · rw [List.pairwise_filterMap]
    refine scan_pairwise.imp fun {e f} before a ha b hb => ?_
    obtain ⟨c, -, rfl⟩ := Option.map_eq_some_iff.mp ha
    obtain ⟨d, -, rfl⟩ := Option.map_eq_some_iff.mp hb
    exact before
  · -- Two entries of one rank are the same entry, and that shows one color.
    intro a ha b hb same
    obtain ⟨i, left, shown⟩ := exists_of_mem_spots ha
    obtain ⟨j, right, otherShown⟩ := exists_of_mem_spots hb
    rw [left, right] at same
    obtain rfl := rank_ofTable_inj same
    have entry : a.1 = b.1 := left.trans right.symm
    rw [entry, otherShown] at shown
    exact Prod.ext entry (Option.some.inj shown).symm

/-- A sprite is painted with what its entry shows. -/
theorem findSome?_spot? {sprites : List Sprite}
    (pictures : ∀ s ∈ sprites, s.Pictures (ofTable table s.index) line tall) :
    (sprites.map fun s => ofTable table s.index).findSome? (spot? ram tall line x) =
      (sprites.find? fun s => Scanline.colorAt ram tall x s != 0).map
        fun s => (ofTable table s.index, Scanline.colorAt ram tall x s) := by
  induction sprites with
  | nil => rfl
  | cons s rest ih =>
    have picture := (pictures s List.mem_cons_self).shown? ram x
    rw [List.map_cons, List.findSome?_cons, spot?, picture,
      ih fun t later => pictures t (List.mem_cons_of_mem _ later)]
    by_cases blank : Scanline.colorAt ram tall x s = 0
    · rw [List.find?_cons_of_neg (by simp [blank]), if_pos blank]
      rfl
    · rw [List.find?_cons_of_pos (by simp [blank]), if_neg blank]
      rfl

end SpriteEntry

namespace Scanline

/-- What the painting leaves on a pixel that no sprite had claimed. -/
theorem dab_shadeOver {r : Latch} {plain c : Color} {s : Sprite} {e : SpriteEntry} {line : Nat}
    {tall : Bool} (pictures : s.Pictures e line tall) (visible : c ≠ 0) :
    (dab r plain s c (false, shade r.palette plain)).2 = shadeOver r plain (some (e, c)) := by
  rw [dab, Bool.or_false, if_neg (by simpa using visible), Sprite.behind, Sprite.secondPalette,
    pictures.flags, shadeOver]
  simp only [Bool.and_eq_true, bne_iff_ne]

variable {r : Latch} {ram : VideoRam} {line x : Nat} {tall : Bool} {table : Vector UInt8 0xA0}

/-- The sprites of the scan leave on a pixel what is seen of their entries there. -/
theorem paint_seen {colors : Vector Color 160} {canvas : Canvas} (inside : x < 160)
    (before : canvas.pixel inside = (false, shade r.palette colors[x])) :
    (((Sprite.scan table line tall).foldl (paintSprite r ram tall colors) canvas).pixel inside).2 =
      shadeOver r colors[x] (seen? table ram tall line x) := by
  rw [paint_pixel inside, before, ← findSome?_scan,
    findSome?_spot? fun _ => Sprite.pictures_of_mem_scan]
  cases found : (Sprite.scan table line tall).find? fun s => colorAt ram tall x s != 0 with
  | none => rfl
  | some s =>
    have visible : colorAt ram tall x s ≠ 0 := by simpa using List.find?_some found
    exact dab_shadeOver (Sprite.pictures_of_mem_scan (List.mem_of_find?_eq_some found)) visible

/-- With sprites it shows the foremost of the chosen entries that has a color there. -/
theorem draw_pixel {windowLine : UInt8} (asked : r.control.toNat.testBit 1 = true)
    (inside : x < 160) :
    (draw r ram line windowLine (Sprite.scan table line tall) tall)[x] =
      shadeOver r (colors r ram line windowLine)[x] (seen? table ram tall line x) := by
  have painted : draw r ram line windowLine (Sprite.scan table line tall) tall =
      ((Sprite.scan table line tall).foldl (paintSprite r ram tall (colors r ram line windowLine))
        ⟨(colors r ram line windowLine).map (shade r.palette),
          Vector.replicate 160 false⟩).shades :=
    if_pos asked
  rw [painted]
  refine paint_seen inside (Prod.ext ?_ ?_)
  · exact Vector.getElem_replicate _
  · exact Vector.getElem_map _ inside

end Scanline

namespace Panel

variable {p : Panel} {r : Latch}

end Panel

end DotMatrix
