import DotMatrix.Proofs.Lcd.Compositing
import DotMatrix.Proofs.Lcd.Slicing

namespace DotMatrix

/-- What a line was drawn from. The sprite table and the height of sprites are those of the end of
its scan, the rest is of the end of its transfer. -/
structure Drawing where
  line : Fin 154
  table : Vector UInt8 0xA0
  tall : Bool
  latch : Latch
  ram : VideoRam
  windowLine : UInt8

namespace Drawing

/-- The line as the LCD draws it. -/
def row (d : Drawing) : Row :=
  Scanline.draw d.latch d.ram d.line d.windowLine (Sprite.scan d.table d.line d.tall) d.tall

/-- The shade of a column, told from the registers, the video memory and the sprite table: that of
the entry that is seen there, if sprites are asked for, or else that of background and window. -/
def pixel? (d : Drawing) (x : Nat) : Option Shade := do
  let plain ← Scanline.plainColor? d.latch d.ram d.line d.windowLine.toNat x
  let sprite := if d.latch.control.toNat.testBit 1 then
    SpriteEntry.seen? d.table d.ram d.tall d.line x else none
  return SpriteEntry.shadeOver d.latch plain sprite

/-- A pixel of the line that is drawn has the shade that is told of it. -/
theorem pixel?_eq (d : Drawing) (x : Fin 160) : d.pixel? x = some (d.row.get x) := by
  rw [pixel?, Scanline.colors_eq x.isLt d.windowLine]
  refine congrArg some ?_
  cases asked : d.latch.control.toNat.testBit 1 with
  | true => exact (Scanline.draw_pixel asked x.isLt).symm
  | false => exact (Scanline.draw_plain asked x.isLt _ _ _).symm

end Drawing

/-- What has been seen of an LCD at work: the last scan, and the lines drawn since line zero last
began, the first one first. -/
structure Reel where
  table : Vector UInt8 0xA0
  tall : Bool
  drawings : List Drawing

namespace Reel

/-- Nothing has been seen. -/
def empty : Reel := ⟨Vector.replicate 0xA0 0, false, []⟩

/-- Line zero begins. -/
def clear (r : Reel) : Reel := { r with drawings := [] }

/-- A mode ends, with the registers latched. -/
def turn (p : Panel) (r : Reel) : Reel :=
  match p.lcd.mode with
  | .scan => { r with table := p.bus.oam, tall := p.lcd.latch.tallSprites }
  | .transfer =>
    let d := ⟨p.lcd.line, r.table, r.tall, p.lcd.latch, p.bus.vram, p.lcd.windowLine⟩
    { r with drawings := r.drawings ++ [d] }
  | .rest => r
  | .blank => if p.lcd.line = 153 then r.clear else r

/-- Switching on begins another frame. -/
def started (p : Panel) (r : Reel) : Reel := if p.lcd.on then r else r.clear

/-- What a slice of the LCD adds. -/
def slice (n : Nat) (p : Panel) (r : Reel) : Reel :=
  if p.wanted then
    if p.started.lcd.dot + n < p.started.lcd.mode.length then r.started p
    else (r.started p).turn p.started.latched
  else r

/-- What whole slices add. -/
def slices : Nat → Panel → Reel → Reel
  | 0, _, r => r
  | k + 1, p, r => slices k (p.slice 4) (r.slice 4 p)

/-- What a step of the LCD adds, in the slices that it is cut into. -/
def step (n : Nat) (p : Panel) (r : Reel) : Reel :=
  if n % 4 = 0 then r.slices (n / 4) p
  else (r.slices (n / 4) p).slice (n % 4) (p.slices (n / 4))

/-- What every slice keeps, of the LCD and of what is seen of it, is kept by any number of dots. -/
theorem step_keeps {P : Panel → Reel → Prop} {p : Panel} {r : Reel} (start : P p r)
    (slice : ∀ {q : Panel} {s : Reel} {k : Nat}, k ≤ 4 → P q s → P (q.slice k) (s.slice k q))
    (n : Nat) : P (p.step n) (r.step n p) := by
  have whole (k : Nat) : P (p.slices k) (r.slices k p) := by
    induction k generalizing p r with
    | zero => exact start
    | succ k ih => exact ih (slice le_rfl start)
  have few : n % 4 ≤ 4 := (Nat.mod_lt n (by decide)).le
  unfold Panel.step Reel.step
  dsimp only
  split
  · exact whole _
  · exact slice few (whole _)

end Reel

/-- What the background and the window are drawn from: the registers as they would be latched now,
and the video memory. -/
def Bus.scenery (s : Bus) : Latch × VideoRam := (.ofRegisters s.registers, s.vram)

theorem Bus.Undisturbed.scenery {s t : Bus} (same : s.Undisturbed t) : t.scenery = s.scenery := by
  refine Prod.ext ?_ same.vram
  simp only [Bus.scenery, Latch.ofRegisters]
  congr 1 <;> exact same.stored (by decide)

namespace Reel

/-- Every line has been drawn from the same registers and the same video memory. -/
def Of (scenery : Latch × VideoRam) (r : Reel) : Prop :=
  ∀ d ∈ r.drawings, (d.latch, d.ram) = scenery

variable {r : Reel} {p : Panel} {scenery : Latch × VideoRam}

/-- A line that is drawn now is drawn from what is latched now. -/
theorem Of.turn (of : r.Of scenery) (now : (p.lcd.latch, p.bus.vram) = scenery) :
    (r.turn p).Of scenery := by
  unfold Reel.turn
  split
  · exact of
  · intro d member
    rcases List.mem_append.mp member with before | new
    · exact of d before
    · rw [List.mem_singleton.mp new]
      exact now
  · exact of
  · split
    · exact fun d member => absurd member List.not_mem_nil
    · exact of

/-- So is every line of a slice, since a mode ends with latching. -/
theorem Of.slice (of : r.Of scenery) (now : p.bus.scenery = scenery) (n : Nat) :
    (r.slice n p).Of scenery := by
  unfold Reel.slice
  split
  · have begun : (r.started p).Of scenery := by
      unfold Reel.started
      split
      · exact of
      · exact fun d member => absurd member List.not_mem_nil
    split
    · exact begun
    · refine begun.turn (Eq.trans ?_ now)
      simp only [Panel.latched, Panel.started_bus, Bus.scenery]
  · exact of

/-- While neither changes, a step draws from nothing else. -/
theorem Of.step (of : r.Of scenery) (now : p.bus.scenery = scenery) (n : Nat) :
    (r.step n p).Of scenery := by
  have kept := step_keeps (P := fun q s => q.bus.scenery = scenery ∧ s.Of scenery) ⟨now, of⟩
    (fun {q _ k} _ before =>
      ⟨(q.slice_undisturbed k).scenery.trans before.1, before.2.slice before.1 k⟩) n
  exact kept.2

end Reel

/-- The number of lines drawn so far, from the top of the screen. -/
def Lcd.drawn (s : Lcd) : Nat :=
  match s.mode with
  | .scan | .transfer => s.line
  | .rest => s.line + 1
  | .blank => 144

/-- The frame that was drawn last or is being drawn. -/
def Lcd.canvas (s : Lcd) : Frame :=
  match s.mode with
  | .blank => s.front
  | _ => s.back

/-- What is seen of an LCD accounts for all that it has drawn. -/
structure Reel.Fits (r : Reel) (s : Lcd) : Prop where
  blank : s.mode = .blank ↔ 144 ≤ s.line.val
  lines : r.drawings.map (·.line.val) = List.range s.drawn
  rows : ∀ d ∈ r.drawings, s.canvas[d.line.val]? = some d.row
  scanned : s.mode = .transfer → s.sprites = Sprite.scan r.table s.line r.tall ∧ s.tall = r.tall

namespace Reel.Fits

variable {r : Reel} {p : Panel}

/-- Neither the dot nor the registers seen last matter. -/
theorem congr {s : Lcd} (fits : r.Fits s) (dot : Nat) (latch : Latch) (statusLine : Bool) :
    r.Fits { s with dot, latch, statusLine } :=
  ⟨fits.blank, fits.lines, fits.rows, fits.scanned⟩

theorem onScreen {s : Lcd} (fits : r.Fits s) (mode : s.mode ≠ .blank) : s.line.val < 144 :=
  Nat.lt_of_not_le (mt fits.blank.mpr mode)

/-- The sprites that were found are those of the table that was seen. -/
theorem endScan (fits : r.Fits p.lcd) (mode : p.lcd.mode = .scan) :
    (r.turn p).Fits p.endScan.lcd := by
  have screen := fits.onScreen (by simp [mode])
  obtain ⟨-, lines, rows, -⟩ := fits
  simp only [Lcd.drawn, Lcd.canvas, mode] at lines rows
  have seen : r.turn p = { r with table := p.bus.oam, tall := p.lcd.latch.tallSprites } := by
    rw [turn, mode]
  rw [seen]
  exact ⟨iff_of_false (by simp [Panel.endScan, Panel.compare]) screen.not_ge, lines, rows,
    fun _ => ⟨rfl, rfl⟩⟩

/-- One more line has been drawn, from what was seen of it. -/
theorem endTransfer (fits : r.Fits p.lcd) (mode : p.lcd.mode = .transfer) :
    (r.turn p).Fits p.endTransfer.lcd := by
  have screen := fits.onScreen (by simp [mode])
  obtain ⟨-, lines, rows, scanned⟩ := fits
  obtain ⟨sprites, tall⟩ := scanned mode
  simp only [Lcd.drawn, Lcd.canvas, mode] at lines rows
  generalize drawing : (⟨p.lcd.line, r.table, r.tall, p.lcd.latch, p.bus.vram, p.lcd.windowLine⟩ :
    Drawing) = d
  have row : Scanline.draw p.lcd.latch p.bus.vram p.lcd.line p.lcd.windowLine p.lcd.sprites
      p.lcd.tall = d.row := by
    rw [← drawing, Drawing.row, sprites, tall]
  have seen : r.turn p = { r with drawings := r.drawings ++ [d] } := by
    rw [turn, mode, ← drawing]
  have line : d.line = p.lcd.line := by rw [← drawing]
  obtain ⟨windowLine, drawn⟩ : ∃ windowLine, p.endTransfer.lcd = { p.lcd with
      back := p.lcd.back.set p.lcd.line d.row, windowLine := windowLine, mode := .rest } := by
    simp only [Panel.endTransfer, Lcd.draw, dif_pos screen, row]
    exact ⟨_, rfl⟩
  rw [seen, drawn]
  refine ⟨iff_of_false (by simp) screen.not_ge, ?_, ?_, fun other => LcdMode.noConfusion other⟩
  · rw [List.map_append, lines, List.map_singleton, line]
    exact List.range_succ.symm
  · intro e member
    rcases List.mem_append.mp member with before | new
    · -- It lies further up, so this line leaves it alone.
      have above : e.line.val ∈ List.range p.lcd.line := by
        rw [← lines]
        exact List.mem_map_of_mem before
      have other : p.lcd.line.val ≠ e.line.val := (List.mem_range.mp above).ne'
      exact (Vector.getElem?_set_ne screen other).trans (rows e before)
    · rw [List.mem_singleton.mp new, line]
      exact Vector.getElem?_set_self screen

/-- After the last line of the screen the frames change places, and the one drawn is in front. -/
theorem endRest (fits : r.Fits p.lcd) (mode : p.lcd.mode = .rest) :
    (r.turn p).Fits p.endRest.lcd := by
  have screen := fits.onScreen (by simp [mode])
  have next := Position.line_succ (show p.lcd.line.val < 153 by omega)
  obtain ⟨-, lines, rows, -⟩ := fits
  simp only [Lcd.drawn, Lcd.canvas, mode] at lines rows
  have seen : r.turn p = r := by rw [turn, mode]
  rw [seen]
  by_cases last : p.lcd.line + 1 = 144
  · rw [Panel.endRest_of_last last]
    have bottom : p.lcd.line.val + 1 = 144 := next.symm.trans (congrArg Fin.val last)
    rw [bottom] at lines
    exact ⟨iff_of_true rfl (by rw [← bottom, ← next]; rfl), lines, rows,
      fun other => LcdMode.noConfusion other⟩
  · rw [Panel.endRest_of_ne last]
    have further : p.lcd.line.val + 1 ≠ 144 := fun bottom =>
      last (Fin.ext (next.trans bottom))
    refine ⟨iff_of_false (by simp) ?_, ?_, rows, fun other => LcdMode.noConfusion other⟩
    · rw [next]
      omega
    · rw [lines]
      exact congrArg List.range next.symm

theorem endBlankLine (fits : r.Fits p.lcd) (mode : p.lcd.mode = .blank) :
    (r.turn p).Fits p.endBlankLine.lcd := by
  obtain ⟨blank, lines, rows, -⟩ := fits
  have under := blank.mp mode
  simp only [Lcd.drawn, Lcd.canvas, mode] at lines rows
  by_cases last : p.lcd.line = 153
  · have seen : r.turn p = r.clear := by
      simp only [turn, mode, if_pos last]
    rw [seen, Panel.endBlankLine_of_last last]
    exact ⟨iff_of_false (by simp) (show ¬144 ≤ (0 : Fin 154).val by decide), rfl,
      fun d member => absurd member List.not_mem_nil, fun other => LcdMode.noConfusion other⟩
  · have seen : r.turn p = r := by
      simp only [turn, mode, if_neg last]
    have short : p.lcd.line.val ≠ 153 := fun bottom => last (Fin.ext bottom)
    have next := Position.line_succ (show p.lcd.line.val < 153 by omega)
    rw [seen, Panel.endBlankLine_of_ne last]
    refine ⟨iff_of_true mode ?_, ?_, ?_, fun other => absurd (mode.symm.trans other) (by decide)⟩
    · exact under.trans (next.symm ▸ Nat.le_succ _)
    · simpa only [Lcd.drawn, Panel.compare, mode] using lines
    · simpa only [Lcd.canvas, Panel.compare, mode] using rows

/-- What is seen keeps up with the LCD when a mode ends. -/
theorem turn (fits : r.Fits p.lcd) : (r.turn p).Fits p.endMode.lcd := by
  unfold Panel.endMode
  cases mode : p.lcd.mode with
  | scan => exact fits.endScan mode
  | transfer => exact fits.endTransfer mode
  | rest => exact fits.endRest mode
  | blank => exact fits.endBlankLine mode

theorem started (fits : p.lcd.on = true → r.Fits p.lcd) (off : p.OffAtZero) :
    (r.started p).Fits p.started.lcd := by
  unfold Reel.started Panel.started
  split
  · exact fits ‹_›
  · rename_i dark
    have line : p.lcd.line = 0 := off (Bool.eq_false_iff.mpr dark)
    have top : p.switchOn.lcd.line = 0 := line
    refine ⟨iff_of_false (by simp [Panel.switchOn, Panel.compare]) ?_, ?_,
      fun d member => absurd member List.not_mem_nil, fun other => LcdMode.noConfusion other⟩
    · rw [top]
      decide
    · simp only [Lcd.drawn, top]
      rfl

/-- A slice keeps account, as long as the LCD is on after it. -/
theorem slice {n : Nat} (fits : p.lcd.on = true → r.Fits p.lcd) (off : p.OffAtZero)
    (on : (p.slice n).lcd.on = true) : (r.slice n p).Fits (p.slice n).lcd := by
  cases wanted : p.wanted with
  | true =>
    have begun := started fits off
    rw [Panel.slice_of_wanted wanted, Panel.raiseStatus_eq, Reel.slice, if_pos wanted]
    by_cases short : p.started.lcd.dot + n < p.started.lcd.mode.length
    · rw [if_pos short, Panel.advance_of_lt short]
      exact begun.congr _ _ _
    · rw [if_neg short, Panel.advance_of_le (Nat.le_of_not_lt short)]
      have turned := turn (p := p.started.latched) (begun.congr _ _ _)
      exact turned.congr _ _ _
  | false =>
    rw [Panel.slice_of_unwanted wanted] at on ⊢
    by_cases lit : p.lcd.on = true
    · rw [if_pos lit] at on
      cases on
    · rw [if_neg lit] at on
      exact absurd on lit

end Reel.Fits

namespace Lcd

/-- Until another frame is complete, the one in front stays. -/
structure Steady (s t : Lcd) : Prop where
  frames : s.frames ≤ t.frames
  front : t.frames = s.frames → t.front = s.front

theorem Steady.refl (s : Lcd) : s.Steady s := ⟨le_rfl, fun _ => rfl⟩

theorem Steady.trans {s t u : Lcd} (first : s.Steady t) (second : t.Steady u) : s.Steady u where
  frames := first.frames.trans second.frames
  front := by
    intro same
    have upper := second.frames
    have lower := first.frames
    exact (second.front (by omega)).trans (first.front (by omega))

end Lcd

namespace Panel

/-- Only the end of the last line on the screen completes a frame. -/
theorem endMode_steady (p : Panel) : p.lcd.Steady p.endMode.lcd := by
  unfold endMode
  cases mode : p.lcd.mode with
  | scan => exact ⟨le_rfl, fun _ => rfl⟩
  | transfer =>
    obtain ⟨back, windowLine, drawn⟩ := draw_frame p.lcd p.bus.vram
    simp only [endTransfer, drawn]
    exact ⟨le_rfl, fun _ => rfl⟩
  | rest =>
    change p.lcd.Steady p.endRest.lcd
    by_cases last : p.lcd.line + 1 = 144
    · rw [endRest_of_last last]
      exact ⟨Nat.le_succ _, fun same => absurd same (Nat.succ_ne_self _)⟩
    · rw [endRest_of_ne last]
      exact ⟨le_rfl, fun _ => rfl⟩
  | blank =>
    change p.lcd.Steady p.endBlankLine.lcd
    by_cases last : p.lcd.line = 153
    · rw [endBlankLine_of_last last]
      exact ⟨le_rfl, fun _ => rfl⟩
    · rw [endBlankLine_of_ne last]
      exact ⟨le_rfl, fun _ => rfl⟩

theorem started_steady (p : Panel) : p.lcd.Steady p.started.lcd := by
  unfold started
  split <;> exact ⟨le_rfl, fun _ => rfl⟩

theorem started_frames (p : Panel) : p.started.lcd.frames = p.lcd.frames := by
  unfold started
  split <;> rfl

/-- A slice leaves the frame in front unless it completes another. -/
theorem slice_steady (n : Nat) (p : Panel) : p.lcd.Steady (p.slice n).lcd := by
  cases wanted : p.wanted with
  | true =>
    rw [slice_of_wanted wanted, raiseStatus_eq]
    refine p.started_steady.trans ?_
    by_cases short : p.started.lcd.dot + n < p.started.lcd.mode.length
    · rw [advance_of_lt short]
      exact ⟨le_rfl, fun _ => rfl⟩
    · rw [advance_of_le (Nat.le_of_not_lt short)]
      obtain ⟨frames, front⟩ := endMode_steady p.started.latched
      exact ⟨frames, front⟩
  | false =>
    rw [slice_of_unwanted wanted]
    split <;> exact ⟨le_rfl, fun _ => rfl⟩

theorem step_steady (n : Nat) (p : Panel) : p.lcd.Steady (p.step n).lcd :=
  step_keeps (P := fun q => p.lcd.Steady q.lcd) (.refl _)
    (fun _ steady => steady.trans (slice_steady _ _)) n

/-- Nothing is completed while the LCD is off. -/
theorem step_of_unwanted {p : Panel} (unwanted : p.wanted = false) (n : Nat) :
    (p.step n).finished = p.finished ∧ (p.step n).lcd.frames = p.lcd.frames := by
  have dark : (p.step n).wanted = false ∧ (p.step n).finished = p.finished ∧
      (p.step n).lcd.frames = p.lcd.frames := by
    refine step_keeps (P := fun q => q.wanted = false ∧ q.finished = p.finished ∧
      q.lcd.frames = p.lcd.frames) ⟨unwanted, rfl, rfl⟩ ?_ n
    rintro q k - ⟨unwanted, finished, frames⟩
    refine ⟨(slice_wanted _ _).trans unwanted, ?_⟩
    rw [slice_of_unwanted unwanted]
    split <;> exact ⟨finished, frames⟩
  exact dark.2

end Panel

open Position

namespace Lcd

/-- An LCD that the program has switched on has run a number of dots since then, or none. -/
theorem Reach.exists_lit {lcd : Lcd} {bus bus' : Bus} (reach : lcd.Reach bus)
    (wanted : bus'.lcdWanted = true) : ∃ base k, Lit base k lcd bus' := by
  induction reach generalizing bus' with
  | start => exact ⟨0, 0, .on (.start bus') rfl rfl wanted⟩
  | @dots lcd bus n reach ih =>
    cases before : bus.lcdWanted with
    | true =>
      obtain ⟨base, k, lit⟩ := ih before
      exact ⟨base, k + n, (lit.dots n).other bus' wanted⟩
    | false =>
      rcases Nat.eq_zero_or_pos n with rfl | positive
      · exact ih wanted
      · have off := (reach.step_on positive).trans before
        exact ⟨_, 0, .on (.other bus' (.dots n reach)) off rfl wanted⟩
  | other _ _ ih => exact ih wanted

/-- The frames that are complete, by the dots since switching on. -/
theorem Lit.frames {lcd : Lcd} {bus : Bus} {base k : Nat} (lit : Lit base k lcd bus) :
    lcd.frames = base + framesAfter k :=
  (Panel.started_frames ⟨lcd, bus, false⟩).symm.trans lit.runs.position.frames

/-- The LCD since power-on with what has been seen of it. Between its dots anything may happen to
the bus. -/
inductive Filmed : Reel → Lcd → Bus → Prop
  | start (bus : Bus) : Filmed .empty .initial bus
  | dots {reel : Reel} {lcd : Lcd} {bus : Bus} (n : Nat) : Filmed reel lcd bus →
      Filmed (reel.step n ⟨lcd, bus, false⟩) (lcd.step n bus).lcd (lcd.step n bus).bus
  | other {reel : Reel} {lcd : Lcd} {bus : Bus} (bus' : Bus) : Filmed reel lcd bus →
      Filmed reel lcd bus'

variable {reel : Reel} {lcd : Lcd} {bus : Bus}

theorem Filmed.reach (filmed : Filmed reel lcd bus) : lcd.Reach bus := by
  induction filmed with
  | start bus => exact .start bus
  | dots n _ ih => exact .dots n ih
  | other bus' _ ih => exact .other bus' ih

/-- While the LCD is on, all that it has drawn of its frame has been seen. -/
theorem Filmed.fits (filmed : Filmed reel lcd bus) (on : lcd.on = true) : reel.Fits lcd := by
  induction filmed with
  | start => cases on
  | @dots reel lcd bus n filmed ih =>
    have kept := Reel.step_keeps (P := fun q s => q.OffAtZero ∧ (q.lcd.on = true → s.Fits q.lcd))
      (p := ⟨lcd, bus, false⟩) (r := reel) ⟨filmed.reach.offAtZero false, ih⟩
      (fun _ before => ⟨before.1.slice _, Reel.Fits.slice before.2 before.1⟩) n
    exact kept.2 on
  | other _ _ ih => exact ih on

/-- A step completes at most one frame. If it does, the frame in front has been drawn line by line
since line zero last began, each line once and as it stood at the end of its transfer. If not, the
frame in front stays. -/
theorem Filmed.step {n : Nat} (filmed : Filmed reel lcd bus) (positive : 1 ≤ n) (few : n < 80) :
    let p := lcd.step n bus
    let r := reel.step n ⟨lcd, bus, false⟩
    p.finished = false ∧ p.lcd.frames = lcd.frames ∧ p.lcd.front = lcd.front ∨
    p.finished = true ∧ p.lcd.frames = lcd.frames + 1 ∧ p.lcd.on = true ∧
      r.drawings.map (·.line.val) = List.range 144 ∧
      ∀ d ∈ r.drawings, p.lcd.front[d.line.val]? = some d.row := by
  intro p r
  have steady : lcd.Steady p.lcd := Panel.step_steady n ⟨lcd, bus, false⟩
  cases wanted : bus.lcdWanted with
  | false =>
    obtain ⟨finished, frames⟩ := Panel.step_of_unwanted (p := ⟨lcd, bus, false⟩) wanted n
    exact Or.inl ⟨finished, frames, steady.front frames⟩
  | true =>
    obtain ⟨base, k, lit⟩ := filmed.reach.exists_lit wanted
    have runs : Panel.Runs base k (bus.requested.has 0) (k + n) p := lit.runs.step n
    have on := runs.on (by omega)
    have position := runs.position
    rw [Panel.started_of_on on] at position
    have before : lcd.frames = base + framesAfter k := lit.frames
    have after : p.lcd.frames = base + framesAfter (k + n) := (lit.dots n).frames
    -- The dots since switching on tell whether line 144 begins in this step.
    by_cases more : framesAfter k < framesAfter (k + n)
    · have under : 144 ≤ p.lcd.line.val := by
        obtain ⟨above, below⟩ := (framesAfter_lt_iff few).mp more
        have place : (k + n) % 70224 = p.lcd.line.val * 456 + p.lcd.mode.start + p.lcd.dot :=
          position.place
        have within : p.lcd.dot < p.lcd.mode.length := position.within
        have fits := p.lcd.mode.start_add_length_le
        omega
      have mode : p.lcd.mode = .blank := position.blank.mpr under
      have seen : r.Fits p.lcd := (filmed.dots n).fits on
      have front : p.lcd.canvas = p.lcd.front := by rw [canvas, mode]
      have lines := seen.lines
      have rows := seen.rows
      rw [drawn, mode] at lines
      rw [front] at rows
      refine Or.inr ⟨runs.finished.mpr more, ?_, on, lines, rows⟩
      unfold framesAfter at before after more
      omega
    · have same : p.lcd.frames = lcd.frames := by
        have mono := framesAfter_mono (Nat.le_add_right k n)
        omega
      exact Or.inl ⟨Bool.eq_false_iff.mpr (mt runs.finished.mp more), same, steady.front same⟩

end Lcd

end DotMatrix
