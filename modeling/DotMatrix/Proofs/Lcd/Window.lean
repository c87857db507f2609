import DotMatrix.Proofs.Lcd.Film

namespace DotMatrix

/-- Whether the window was drawn on the line. -/
def Drawing.windowed (d : Drawing) : Bool :=
  let bit := d.latch.control.toNat.testBit
  bit 0 && bit 5 && decide (d.latch.windowY.toNat ≤ d.line.val) &&
    decide (d.latch.windowX.toNat ≤ 166)

/-- The window is drawn on a line exactly if the registers say so. -/
theorem Drawing.windowed_eq (d : Drawing) : d.windowed = d.latch.windowOn d.line := by
  rw [Bool.eq_iff_iff, Scanline.windowOn_iff]
  simp only [windowed, Bool.and_eq_true, decide_eq_true_eq, and_assoc]

/-- The LCD and what is seen of it agree on the lines of the window that were drawn. -/
structure Reel.Counts (r : Reel) (s : Lcd) : Prop where
  next : s.windowLine.toNat = r.drawings.countP Drawing.windowed
  each : ∀ (i : Nat) (d : Drawing), r.drawings[i]? = some d →
    d.windowLine.toNat = (r.drawings.take i).countP Drawing.windowed

namespace Reel.Counts

variable {r : Reel} {p : Panel}

theorem clear {s : Lcd} (zero : s.windowLine = 0) : r.clear.Counts s where
  next := by rw [zero]; rfl
  each := by
    intro i d drawing
    cases drawing

theorem congr {s t : Lcd} (counts : r.Counts s) (same : t.windowLine = s.windowLine) :
    r.Counts t where
  next := by rw [same]; exact counts.next
  each := counts.each

/-- A line with the window counts, and is drawn from as many before it. -/
theorem endTransfer (counts : r.Counts p.lcd) (fits : r.Fits p.lcd)
    (mode : p.lcd.mode = .transfer) : (r.turn p).Counts p.endTransfer.lcd := by
  have screen := fits.onScreen (by simp [mode])
  have lines : r.drawings.length = p.lcd.line.val := by
    have drawn := congrArg List.length fits.lines
    rwa [List.length_map, List.length_range, Lcd.drawn, mode] at drawn
  have few := List.countP_le_length (p := Drawing.windowed) (l := r.drawings)
  generalize drawing : (⟨p.lcd.line, r.table, r.tall, p.lcd.latch, p.bus.vram, p.lcd.windowLine⟩ :
    Drawing) = d
  have seen : r.turn p = { r with drawings := r.drawings ++ [d] } := by
    rw [turn, mode, ← drawing]
  have windowed : p.lcd.latch.windowOn p.lcd.line = d.windowed := by
    rw [d.windowed_eq, ← drawing]
  have windowLine : p.endTransfer.lcd.windowLine =
      if d.windowed then p.lcd.windowLine + 1 else p.lcd.windowLine := by
    simp only [Panel.endTransfer, Lcd.draw, dif_pos screen, windowed]
  obtain ⟨next, each⟩ := counts
  rw [seen]
  constructor
  · rw [windowLine, List.countP_append, List.countP_singleton, ← next]
    split
    · rw [UInt8.toNat_add]
      have one : (1 : UInt8).toNat = 1 := rfl
      omega
    · rfl
  · intro i e member
    rcases Nat.lt_trichotomy i r.drawings.length with before | new | beyond
    · rw [List.getElem?_append_left before] at member
      rw [List.take_append_of_le_length before.le]
      exact each i e member
    · subst new
      rw [List.getElem?_concat_length] at member
      obtain rfl := Option.some.inj member
      rw [List.take_left, ← next, ← drawing]
    · obtain ⟨within, -⟩ := List.getElem?_eq_some_iff.mp member
      rw [List.length_append, List.length_singleton] at within
      omega

theorem endRest (counts : r.Counts p.lcd) (mode : p.lcd.mode = .rest) :
    (r.turn p).Counts p.endRest.lcd := by
  have seen : r.turn p = r := by rw [turn, mode]
  rw [seen]
  by_cases last : p.lcd.line + 1 = 144
  · rw [Panel.endRest_of_last last]
    exact counts.congr rfl
  · rw [Panel.endRest_of_ne last]
    exact counts.congr rfl

theorem endBlankLine (counts : r.Counts p.lcd) (mode : p.lcd.mode = .blank) :
    (r.turn p).Counts p.endBlankLine.lcd := by
  by_cases last : p.lcd.line = 153
  · have seen : r.turn p = r.clear := by
      simp only [turn, mode, if_pos last]
    rw [seen, Panel.endBlankLine_of_last last]
    exact clear rfl
  · have seen : r.turn p = r := by
      simp only [turn, mode, if_neg last]
    rw [seen, Panel.endBlankLine_of_ne last]
    exact counts.congr rfl

/-- The end of any mode keeps the count. -/
theorem turn (counts : r.Counts p.lcd) (fits : r.Fits p.lcd) :
    (r.turn p).Counts p.endMode.lcd := by
  unfold Panel.endMode
  cases mode : p.lcd.mode with
  | scan =>
    have seen : (r.turn p).drawings = r.drawings := by rw [Reel.turn, mode]
    exact ⟨by rw [seen]; exact counts.next, by rw [seen]; exact counts.each⟩
  | transfer => exact counts.endTransfer fits mode
  | rest => exact counts.endRest mode
  | blank => exact counts.endBlankLine mode

/-- Switching on keeps the count, since an LCD that is off has forgotten the window. -/
theorem started (counts : p.lcd.on = true → r.Counts p.lcd) (forgets : p.Forgets) :
    (r.started p).Counts p.started.lcd := by
  unfold Reel.started Panel.started
  split
  · exact counts ‹_›
  · rename_i dark
    exact clear (forgets (Bool.eq_false_iff.mpr dark)).1

theorem slice {n : Nat} (counts : p.lcd.on = true → r.Counts p.lcd)
    (fits : p.lcd.on = true → r.Fits p.lcd) (off : p.OffAtZero) (forgets : p.Forgets)
    (on : (p.slice n).lcd.on = true) : (r.slice n p).Counts (p.slice n).lcd := by
  cases wanted : p.wanted with
  | true =>
    have begun := started counts forgets
    have fitted := Reel.Fits.started fits off
    rw [Panel.slice_of_wanted wanted, Panel.raiseStatus_eq, Reel.slice, if_pos wanted]
    by_cases short : p.started.lcd.dot + n < p.started.lcd.mode.length
    · rw [if_pos short, Panel.advance_of_lt short]
      exact begun.congr rfl
    · rw [if_neg short, Panel.advance_of_le (Nat.le_of_not_lt short)]
      have turned := turn (p := p.started.latched) (begun.congr rfl) (fitted.congr _ _ _)
      exact turned.congr rfl
  | false =>
    rw [Panel.slice_of_unwanted wanted] at on ⊢
    by_cases lit : p.lcd.on = true
    · rw [if_pos lit] at on
      cases on
    · rw [if_neg lit] at on
      exact absurd on lit

end Reel.Counts

namespace Lcd

variable {reel : Reel} {lcd : Lcd} {bus : Bus}

/-- While the LCD is on, the lines of the window are counted as they are seen. -/
theorem Filmed.counts (filmed : Filmed reel lcd bus) (on : lcd.on = true) : reel.Counts lcd := by
  induction filmed with
  | start => cases on
  | @dots reel lcd bus n filmed ih =>
    have kept := Reel.step_keeps (P := fun q s => q.OffAtZero ∧ q.Forgets ∧
        (q.lcd.on = true → s.Fits q.lcd) ∧ (q.lcd.on = true → s.Counts q.lcd))
      (p := ⟨lcd, bus, false⟩) (r := reel)
      ⟨filmed.reach.offAtZero false, filmed.reach.forgets false, filmed.fits, ih⟩
      (fun _ ⟨off, forgets, fits, counts⟩ => ⟨off.slice _, forgets.slice _,
        Reel.Fits.slice fits off, Reel.Counts.slice counts fits off forgets⟩) n
    exact kept.2.2.2 on
  | other _ _ ih => exact ih on

end Lcd

end DotMatrix
