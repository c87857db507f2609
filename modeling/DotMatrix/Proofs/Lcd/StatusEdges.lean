import DotMatrix.Proofs.Bytes
import DotMatrix.Proofs.Lcd.Slicing

namespace DotMatrix

namespace Position

/-- The line that is compared when the mode ends. -/
def comparing (p : Position) : Option (Fin 154) :=
  match p.mode with
  | .scan => some p.line
  | .transfer => none
  | .rest => if p.line + 1 = 144 then some 144 else none
  | .blank => if p.line = 153 then none else some (p.line + 1)

/-- The line above another, `n` dots after the LCD was switched on. Above line zero is the last line
of the frame before, and in the first frame line zero itself. -/
def lineAbove (n line : Nat) : Nat :=
  if 0 < line then line - 1 else if n < 456 then 0 else 153

/-- The line compared last, `n` dots after the LCD was switched on. A line of the screen is compared
when its scan ends, and until then the one above it counts. -/
def comparedLine (n : Nat) : Nat :=
  if 144 ≤ lineAfter n ∨ 80 ≤ n % 456 then lineAfter n else lineAbove n (lineAfter n)

/-- The same by where the LCD stands. -/
def compared (n : Nat) (p : Position) : Nat :=
  match p.mode with
  | .scan => lineAbove n p.line
  | .transfer | .rest | .blank => p.line

/-- The line compared last, told from the dots and from the position, is the same. -/
theorem Reached.comparedLine_eq {base n : Nat} {p : Position} (reached : Reached base n p) :
    comparedLine n = p.compared n := by
  have inLine := reached.inLine
  obtain ⟨onLine, -⟩ := reached.eq
  obtain ⟨-, within, blank, -⟩ := reached
  rw [comparedLine, ← onLine, inLine, compared]
  cases mode : p.mode with
  | scan =>
    rw [mode] at blank within
    have screen := mt blank.mpr (by decide)
    have early : p.dot < 80 := within
    exact if_neg (by simp only [LcdMode.start]; omega)
  | blank => exact if_pos (Or.inl (blank.mp mode))
  | transfer | rest => exact if_pos (Or.inr (by simp only [LcdMode.start]; omega))

/-- What counts when a mode has ended. -/
theorem turn_compared {m n : Nat} {p : Position} (onScreen : p.mode ≠ .blank → p.line.val < 144)
    (late : p.mode = .blank → 456 ≤ n) :
    p.turn.compared n = (p.comparing.map Fin.val).getD (p.compared m) := by
  obtain ⟨line, mode, dot, frames⟩ := p
  cases mode with
  | scan | transfer => rfl
  | rest =>
    have screen : line.val < 144 := onScreen nofun
    unfold turn comparing
    dsimp only
    split_ifs with last
    · exact congrArg Fin.val last
    · have next := line_succ (show line.val < 153 by omega)
      change lineAbove n (line + 1 : Fin 154).val = line.val
      rw [lineAbove, next, if_pos (Nat.succ_pos _), Nat.add_sub_cancel]
  | blank =>
    have below := late rfl
    unfold turn comparing
    dsimp only
    split_ifs with last
    · rw [last]
      exact if_neg (Nat.not_lt.mpr below)
    · rfl

/-- A mode that ends may compare another line. Until then the last one counts. -/
theorem Reached.comparedLine_add {base n k : Nat} {p : Position} (reached : Reached base n p)
    (few : k < 80) : comparedLine (n + k) =
      if p.dot + k < p.mode.length then comparedLine n
      else (p.comparing.map Fin.val).getD (comparedLine n) := by
  rw [(reached.advance few).comparedLine_eq, reached.comparedLine_eq, Position.advance]
  obtain ⟨place, within, blank, -⟩ := reached
  split
  · rename_i short
    unfold compared
    dsimp only
    cases mode : p.mode with
    | scan =>
      rw [mode] at place short
      simp only [LcdMode.start, LcdMode.length] at place short
      unfold lineAbove
      split_ifs <;> omega
    | _ => rfl
  · refine turn_compared (fun mode => Nat.lt_of_not_le (mt blank.mpr mode)) fun mode => ?_
    have under := blank.mp mode
    omega

/-- In a frame the comparisons follow each other at 456 dots, but there are 376 between the last one
on the screen and the first below it. -/
theorem comparedLine_inFrame (j : Nat) {r : Nat} (inside : r < 70224) :
    comparedLine (70224 * j + r) =
      if r < 80 then if j = 0 then 0 else 153
      else if r < 65664 then (r - 80) / 456 else r / 456 := by
  have line : lineAfter (70224 * j + r) = r / 456 := by
    unfold lineAfter
    omega
  have dot : (70224 * j + r) % 456 = r % 456 := by omega
  rw [comparedLine, line, dot, lineAbove]
  by_cases low : 144 ≤ r / 456 ∨ 80 ≤ r % 456
  · rw [if_pos low]
    split_ifs <;> omega
  · rw [if_neg low]
    split_ifs <;> omega

/-- The slice of a frame in which the comparison begins to find line `k`. In the first frame line
zero is found at once. -/
def matchSlice (j k : Nat) : Nat :=
  if k < 144 then if j = 0 ∧ k = 0 then 0 else 114 * k + 19 else 114 * k - 1

theorem matchSlice_lt {k : Nat} (found : k ≤ 153) (j : Nat) : matchSlice j k < 17556 := by
  unfold matchSlice
  split_ifs <;> omega

/-- The comparison begins to find a line once in a frame, in the slice that belongs to it. -/
theorem comparedLine_rises_iff {j q k : Nat} (inside : q < 17556) :
    comparedLine (70224 * j + 4 * q + 4) = k ∧
        ¬(70224 * j + 4 * q ≠ 0 ∧ comparedLine (70224 * j + 4 * q) = k) ↔
      k ≤ 153 ∧ q = matchSlice j k := by
  rw [comparedLine_inFrame j (show 4 * q < 70224 by omega), matchSlice]
  by_cases last : q = 17555
  · -- The last slice ends in the next frame, where line 153 still counts.
    have next : 70224 * j + 4 * q + 4 = 70224 * (j + 1) + 0 := by omega
    rw [next, comparedLine_inFrame (j + 1) (by decide), if_pos (by decide), if_neg j.succ_ne_zero,
      if_neg (by omega), if_neg (by omega)]
    split_ifs <;> omega
  · rw [Nat.add_assoc, comparedLine_inFrame j (show 4 * q + 4 < 70224 by omega)]
    split_ifs <;> omega

/-- The joined status sources `n` dots after the LCD was switched on, where the program asks for
line `k` and for the sources in `mask`. -/
def statusAt (k mask : UInt8) (n : Nat) : Bool :=
  n ≠ 0 && ((mask.toNat.testBit 6 && comparedLine n = k.toNat) ||
    match modeAfter n with
    | .rest => mask.toNat.testBit 3
    | .blank => mask.toNat.testBit 4
    | .scan => mask.toNat.testBit 5
    | .transfer => false)

theorem statusAt_of_line {k mask : UInt8} {n : Nat} (only : mask &&& 0x78 = 0x40) :
    statusAt k mask n = true ↔ n ≠ 0 ∧ comparedLine n = k.toNat := by
  have same : mask &&& 0x78 = 0x40 &&& 0x78 := only
  have line : mask.toNat.testBit 6 = true := testBit_of_and same (by decide)
  have scan : mask.toNat.testBit 5 = false := testBit_of_and same (by decide)
  have blank : mask.toNat.testBit 4 = false := testBit_of_and same (by decide)
  have rest : mask.toNat.testBit 3 = false := testBit_of_and same (by decide)
  unfold statusAt
  cases modeAfter n <;> simp [line, scan, blank, rest]

theorem statusAt_rises_iff {k mask : UInt8} (only : mask &&& 0x78 = 0x40) {j q : Nat}
    (inside : q < 17556) :
    (statusAt k mask (4 * (17556 * j + q) + 4) && !statusAt k mask (4 * (17556 * j + q))) = true ↔
      k.toNat ≤ 153 ∧ q = matchSlice j k.toNat := by
  have dots : 4 * (17556 * j + q) = 70224 * j + 4 * q := by omega
  rw [← comparedLine_rises_iff inside, Bool.and_eq_true, Bool.not_eq_true', ← Bool.not_eq_true,
    statusAt_of_line only, statusAt_of_line only, dots]
  exact and_congr_left fun _ => and_iff_right (Nat.succ_ne_zero _)

end Position

open Position

/-- The LCD is switched on, and the program asks for line `k` and the sources in `mask`. -/
structure Bus.Asks (k mask : UInt8) (s : Bus) : Prop where
  on : (s.registers.stored .lcdc).toNat.testBit 7 = true
  line : s.registers.stored .lyc = k
  sources : s.registers.stored .stat &&& 0x78 = mask &&& 0x78

/-- The LCD `n` dots after it was switched on, with the line that was compared last and the sources
that were seen last. -/
structure Lcd.Watches (k mask : UInt8) (n : Nat) (s : Lcd) : Prop where
  on : s.on = true
  position : ∃ base, Reached base n s.position
  coincidence : s.coincidence = decide (comparedLine n = k.toNat)
  statusLine : s.statusLine = statusAt k mask n

namespace Panel

variable {k mask : UInt8} {n : Nat} {p : Panel}

/-- A comparison in bytes is one in numbers, for lines are few. -/
theorem compare_coincidence (p : Panel) : p.compare.lcd.coincidence =
    decide (p.lcd.line.val = (p.bus.registers.stored .lyc).toNat) := by
  have below := p.lcd.line.isLt
  have same : (UInt8.ofNat p.lcd.line.val == p.bus.registers.stored .lyc) =
      decide (p.lcd.line.val = (p.bus.registers.stored .lyc).toNat) := by
    rw [Bool.eq_iff_iff, beq_iff_eq, decide_eq_true_iff, ← UInt8.toNat_inj, UInt8.toNat_ofNat',
      Nat.mod_eq_of_lt (by omega)]
  exact same

/-- The end of a mode compares the line that it is to compare, if there is one. -/
theorem endMode_coincidence (p : Panel) : p.endMode.lcd.coincidence =
    match p.lcd.position.comparing with
    | none => p.lcd.coincidence
    | some line => decide (line.val = (p.bus.registers.stored .lyc).toNat) := by
  unfold endMode Position.comparing
  have here : p.lcd.position.mode = p.lcd.mode := rfl
  have line : p.lcd.position.line = p.lcd.line := rfl
  rw [here, line]
  cases mode : p.lcd.mode with
  | scan => exact compare_coincidence _
  | transfer =>
    obtain ⟨back, windowLine, drawn⟩ := draw_frame p.lcd p.bus.vram
    simp only [endTransfer, drawn]
  | rest =>
    by_cases last : p.lcd.line + 1 = 144
    · rw [endRest_of_last last, if_pos last, ← last]
      exact compare_coincidence _
    · rw [endRest_of_ne last, if_neg last]
  | blank =>
    by_cases last : p.lcd.line = 153
    · rw [endBlankLine_of_last last, if_pos last]
    · rw [endBlankLine_of_ne last, if_neg last]
      exact compare_coincidence _

theorem endMode_statusLine (p : Panel) : p.endMode.lcd.statusLine = p.lcd.statusLine := by
  unfold endMode
  cases p.lcd.mode with
  | scan => rfl
  | transfer =>
    obtain ⟨back, windowLine, drawn⟩ := draw_frame p.lcd p.bus.vram
    simp only [endTransfer, drawn]
  | rest =>
    by_cases last : p.lcd.line + 1 = 144
    · rw [endRest_of_last last]
      rfl
    · rw [endRest_of_ne last]
  | blank =>
    by_cases last : p.lcd.line = 153
    · rw [endBlankLine_of_last last]
    · rw [endBlankLine_of_ne last]
      rfl

theorem advance_statusLine (k : Nat) (p : Panel) :
    (p.advance k).lcd.statusLine = p.lcd.statusLine := by
  by_cases short : p.lcd.dot + k < p.lcd.mode.length
  · rw [advance_of_lt short]
    rfl
  · rw [advance_of_le (Nat.le_of_not_lt short)]
    exact endMode_statusLine p.latched

/-- A few dots keep the comparison in step with the line compared last. -/
theorem advance_coincidence {base k : Nat} (reached : Reached base n p.lcd.position) (few : k < 80)
    (before : p.lcd.coincidence =
      decide (comparedLine n = (p.bus.registers.stored .lyc).toNat)) :
    (p.advance k).lcd.coincidence =
      decide (comparedLine (n + k) = (p.bus.registers.stored .lyc).toNat) := by
  rw [reached.comparedLine_add few]
  by_cases short : p.lcd.dot + k < p.lcd.mode.length
  · rw [advance_of_lt short,
      if_pos (show p.lcd.position.dot + k < p.lcd.position.mode.length from short)]
    exact before
  · rw [advance_of_le (Nat.le_of_not_lt short),
      if_neg (show ¬p.lcd.position.dot + k < p.lcd.position.mode.length from short)]
    refine (endMode_coincidence p.latched).trans ?_
    have same : p.latched.lcd.position = p.lcd.position := rfl
    rw [same]
    cases p.lcd.position.comparing with
    | none => exact before
    | some line => rfl

theorem statusSource_eq (asked : p.bus.registers.stored .stat &&& 0x78 = mask &&& 0x78) :
    p.statusSource = ((p.lcd.coincidence && mask.toNat.testBit 6) ||
      match p.lcd.mode with
      | .rest => mask.toNat.testBit 3
      | .blank => mask.toNat.testBit 4
      | .scan => mask.toNat.testBit 5
      | .transfer => false) := by
  unfold statusSource
  dsimp only
  rw [testBit_of_and asked (i := 6) (by decide)]
  cases p.lcd.mode with
  | rest => rw [testBit_of_and asked (i := 3) (by decide)]
  | blank => rw [testBit_of_and asked (i := 4) (by decide)]
  | scan => rw [testBit_of_and asked (i := 5) (by decide)]
  | transfer => rfl

/-- Whether the status interrupt is asked for in the next four dots. -/
def asksStatus (p : Panel) : Bool :=
  (step 4 { p with bus.requested := .empty }).bus.requested.has 1

end Panel

/-- The LCD leaves alone what the program asks for. -/
theorem Bus.Asks.slice {k mask : UInt8} {p : Panel} (asks : p.bus.Asks k mask) (d : Nat) :
    (p.slice d).bus.Asks k mask := by
  obtain ⟨on, line, sources⟩ := asks
  have wanted : p.wanted = true := on
  have registers : (p.slice d).bus.registers = (p.started.advance d).publish.bus.registers := by
    rw [Panel.slice_of_wanted wanted, Panel.raiseStatus_eq]
    split <;> rfl
  have before : (p.started.advance d).bus.registers = p.bus.registers := by
    rw [(Panel.advance_moved d p.started).bus, p.started_bus]
    split <;> rfl
  refine ⟨(p.slice_wanted d).trans wanted, ?_, ?_⟩
  · rw [registers, ← line, ← before]
    simp only [Panel.publish, Bus.store]
    rw [Registers.stored_put_of_ne (by decide), Registers.stored_put_of_ne (by decide)]
  · rw [registers, Panel.publish_stored_stat, Panel.shownStatus_sources, before, sources]

namespace Lcd

variable {k mask : UInt8} {n : Nat} {s : Lcd} {p : Panel}

theorem Watches.started {bus bus' : Bus} (reach : s.Reach bus) (off : s.on = false)
    (asks : bus'.Asks k mask) : (Panel.started ⟨s, bus', false⟩).lcd.Watches k mask 0 := by
  have line := reach.offAtZero false off
  have forgotten := (reach.forgets false off).2
  have begun : Panel.started ⟨s, bus', false⟩ = Panel.switchOn ⟨s, bus', false⟩ :=
    if_neg (by simp [off])
  rw [begun]
  refine ⟨rfl, ⟨s.frames, ?_⟩, ?_, forgotten⟩
  · have position : (Panel.switchOn ⟨s, bus', false⟩).lcd.position = ⟨0, .scan, 0, s.frames⟩ := by
      rw [← line]
      rfl
    rw [position]
    exact .zero s.frames
  · refine (Panel.compare_coincidence _).trans ?_
    change decide (s.line.val = (bus'.registers.stored .lyc).toNat) = _
    rw [line, asks.line]
    rfl

/-- A slice asks for the interrupt where the joined sources rise. -/
theorem Watches.slice {d : Nat} (watches : p.started.lcd.Watches k mask n)
    (asks : p.bus.Asks k mask) (few : d < 80) (positive : 1 ≤ d) :
    (p.slice d).lcd.Watches k mask (n + d) ∧ (p.slice d).bus.requested.has 1 =
      (p.bus.requested.has 1 || (statusAt k mask (n + d) && !statusAt k mask n)) := by
  obtain ⟨on, ⟨base, reached⟩, coincidence, statusLine⟩ := watches
  obtain ⟨wanted, line, sources⟩ := asks
  have moved := Panel.advance_moved d p.started
  have compared :
      (p.started.advance d).lcd.coincidence = decide (comparedLine (n + d) = k.toNat) := by
    rw [← line] at coincidence ⊢
    rw [← p.started_bus] at coincidence ⊢
    exact Panel.advance_coincidence reached few coincidence
  have position : Reached base (n + d) (p.started.advance d).lcd.position := by
    rw [moved.position]
    exact reached.advance few
  have asked :
      (p.started.advance d).publish.bus.registers.stored .stat &&& 0x78 = mask &&& 0x78 := by
    rw [Panel.publish_stored_stat, Panel.shownStatus_sources, moved.bus, p.started_bus, ← sources]
    split <;> rfl
  have mode : (p.started.advance d).lcd.mode = modeAfter (n + d) := position.eq.2.1
  have active : (p.started.advance d).publish.statusSource = statusAt k mask (n + d) := by
    rw [Panel.statusSource_eq asked, Panel.publish_lcd, compared, mode, statusAt,
      decide_eq_true (show n + d ≠ 0 by omega), Bool.true_and, Bool.and_comm]
  have before : (p.started.advance d).publish.lcd.statusLine = statusAt k mask n := by
    rw [Panel.publish_lcd, Panel.advance_statusLine, statusLine]
  rw [Panel.slice_of_wanted wanted]
  constructor
  · rw [Panel.raiseStatus_eq]
    exact ⟨moved.on.trans on, ⟨base, position⟩, compared, active⟩
  · rw [Panel.raiseStatus_requested, Panel.publish_requested, moved.bus, Bus.requested_ite,
      p.started_bus, Panel.status, active, before]
    simp only [Interrupts.has_union, Interrupts.has_when,
      show Interrupts.vblank.has 1 = false by decide, show Interrupts.stat.has 1 = true by decide,
      Bool.and_false, Bool.or_false, Bool.and_true]

/-- The LCD before each slice of four dots, with what the program does to the bus between them. -/
def paced (s : Lcd) (program : Nat → Bus → Bus) (bus : Bus) : Nat → Panel
  | 0 => ⟨s, program 0 bus, false⟩
  | m + 1 =>
    let p := (paced s program bus m).step 4
    ⟨p.lcd, program (m + 1) p.bus, false⟩

variable {bus : Bus} {program : Nat → Bus → Bus}

/-- By induction on the slices, the LCD shows at each what its dots say. -/
theorem Reach.paced_watches (reach : s.Reach bus) (off : s.on = false)
    (asks : ∀ m, (s.paced program bus m).bus.Asks k mask) (m : Nat) :
    (s.paced program bus m).started.lcd.Watches k mask (4 * m) := by
  induction m with
  | zero => exact .started reach off (asks 0)
  | succ m ih =>
    have next : (s.paced program bus (m + 1)).lcd.Watches k mask (4 * (m + 1)) :=
      (ih.slice (asks m) (d := 4) (by decide) (by decide)).1
    rwa [Panel.started_of_on next.on]

/-- The interrupt is requested in a slice exactly if the status rises in it. -/
theorem Watches.asksStatus (watches : p.started.lcd.Watches k mask n) (asks : p.bus.Asks k mask) :
    p.asksStatus = (statusAt k mask (n + 4) && !statusAt k mask n) := by
  let quiet : Panel := { p with bus.requested := .empty }
  have same : quiet.started.lcd = p.started.lcd := by
    unfold Panel.started
    split <;> rfl
  rw [← same] at watches
  have asked : quiet.bus.Asks k mask := ⟨asks.on, asks.line, asks.sources⟩
  have rises := (watches.slice asked (d := 4) (by decide) (by decide)).2
  rwa [show quiet.bus.requested.has 1 = false from Interrupts.has_empty 1, Bool.false_or] at rises

/-- While the program asks for the same line and sources from when it switches the LCD on, the status
interrupt is asked for in just those slices in which the joined sources rise. If it asks for a line
alone, this happens once in each frame of 17556 slices, and never if there is no such line. -/
theorem Reach.status_edges (reach : s.Reach bus) (off : s.on = false)
    (asks : ∀ m, (s.paced program bus m).bus.Asks k mask) :
    let run := s.paced program bus
    (∀ m, (run m).asksStatus = (statusAt k mask (4 * m + 4) && !statusAt k mask (4 * m)) ∧
      ((run m).step 4).bus.requested.has 1 =
        ((run m).bus.requested.has 1 || (run m).asksStatus)) ∧
    (mask &&& 0x78 = 0x40 →
      (k.toNat ≤ 153 → ∀ j, ∃! m, m / 17556 = j ∧ (run m).asksStatus = true) ∧
      (153 < k.toNat → ∀ m, (run m).asksStatus = false)) := by
  intro run
  have watches := reach.paced_watches off asks
  have edges (m : Nat) := (watches m).asksStatus (asks m)
  refine ⟨fun m => ⟨edges m, ?_⟩, fun only => ?_⟩
  · rw [edges m]
    exact ((watches m).slice (asks m) (d := 4) (by decide) (by decide)).2
  have rises (m : Nat) : (run m).asksStatus = true ↔
      k.toNat ≤ 153 ∧ m % 17556 = matchSlice (m / 17556) k.toNat := by
    rw [edges m, ← statusAt_rises_iff only (Nat.mod_lt m (by decide)), Nat.div_add_mod]
  constructor
  · intro found j
    have inside := matchSlice_lt found j
    refine ⟨17556 * j + matchSlice j k.toNat, ⟨by omega, (rises _).mpr ⟨found, ?_⟩⟩, ?_⟩
    · rw [Nat.mul_add_mod, Nat.mod_eq_of_lt inside, Nat.mul_add_div (by decide),
        Nat.div_eq_of_lt inside, Nat.add_zero]
    · rintro m ⟨rfl, asked⟩
      rw [← ((rises m).mp asked).2, Nat.div_add_mod]
  · intro beyond m
    exact Bool.eq_false_iff.mpr fun asked => beyond.not_ge ((rises m).mp asked).1

theorem paced_asks (start : bus.Asks k mask) (m : Nat) :
    (s.paced (fun _ bus => bus) bus m).bus.Asks k mask := by
  induction m with
  | zero => exact start
  | succ m ih => exact ih.slice 4

/-- A program that only asks for line 3. It is answered in the slice in which the scan of that line
ends, and in no other of the first frame. -/
theorem status_edges_of_line :
    let bus := (Bus.boot .standard none).writeAll [(0xFF45, 3), (0xFF41, 0x40)]
    let run := initial.paced (fun _ bus => bus) bus
    (∀ m, (run m).bus.Asks 3 0x40) ∧ (run 361).asksStatus = true ∧
      ∃! m, m / 17556 = 0 ∧ (run m).asksStatus = true := by
  intro bus run
  have start : bus.Asks 3 0x40 := ⟨by decide, by decide, by decide⟩
  obtain ⟨edges, frames⟩ := (Reach.start bus).status_edges rfl (paced_asks start)
  exact ⟨paced_asks start, (edges 361).1.trans (by decide), (frames rfl).1 (by decide) 0⟩

end Lcd

end DotMatrix
