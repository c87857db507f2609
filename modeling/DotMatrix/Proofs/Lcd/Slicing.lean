import DotMatrix.Proofs.Bus.Hardware
import DotMatrix.Proofs.Lcd.Timing
import Mathlib.Logic.Function.Iterate

namespace DotMatrix

theorem LcdMode.le_length (m : LcdMode) : 80 ≤ m.length := by
  cases m <;> decide

namespace Panel

theorem step_of_lt {n : Nat} (p : Panel) (nonzero : n ≠ 0) (few : n < 4) : p.step n = p.slice n := by
  rw [step, Nat.div_eq_of_lt few, Nat.mod_eq_of_lt few, if_neg nonzero, slices]

theorem step_add_four (p : Panel) (n : Nat) : p.step (n + 4) = (p.slice 4).step n := by
  simp only [step, Nat.add_div_right n (show 0 < 4 by decide), Nat.add_mod_right, slices]

/-- An LCD that is not wanted is switched off, and then stays as it is. -/
theorem slice_of_unwanted {n : Nat} {p : Panel} (unwanted : p.wanted = false) :
    p.slice n = if p.lcd.on then p.switchOff else p := by
  rw [slice, unwanted, if_neg (by decide)]

/-- What the first slice brings about and the others keep holds after any dots. -/
theorem step_of_first {P : Panel → Prop} {p : Panel} {n : Nat} (positive : 1 ≤ n)
    (first : ∀ k ≤ 4, P (p.slice k))
    (slice : ∀ {q : Panel} {k : Nat}, k ≤ 4 → P q → P (q.slice k)) : P (p.step n) := by
  by_cases few : n < 4
  · rw [step_of_lt p (by omega) few]
    exact first n few.le
  · obtain ⟨m, rfl⟩ : ∃ m, n = m + 4 := ⟨n - 4, by omega⟩
    rw [step_add_four]
    exact step_keeps (first 4 le_rfl) slice m

theorem step_wanted (n : Nat) (p : Panel) : (p.step n).wanted = p.wanted :=
  step_keeps (P := fun q => q.wanted = p.wanted) rfl
    (fun _ same => (slice_wanted _ _).trans same) n

theorem publish_undisturbed (p : Panel) : p.bus.Undisturbed p.publish.bus :=
  ((Bus.Undisturbed.refl _).store .ly (by decide) _).store .stat (by decide) _

/-- The LCD reads the memories and never writes them. -/
theorem slice_undisturbed (n : Nat) (p : Panel) : p.bus.Undisturbed (p.slice n).bus := by
  cases wanted : p.wanted with
  | true =>
    have moved : p.bus.Undisturbed (p.started.advance n).bus := by
      rw [(advance_moved n p.started).bus, started_bus]
      exact (Bus.Undisturbed.refl _).request_ite .vblank _
    rw [slice_of_wanted wanted, raiseStatus_eq]
    exact (moved.trans (publish_undisturbed _)).request_ite .stat _
  | false =>
    rw [slice_of_unwanted wanted]
    split
    · exact publish_undisturbed _
    · exact .refl _

theorem step_undisturbed (n : Nat) (p : Panel) : p.bus.Undisturbed (p.step n).bus :=
  step_keeps (P := fun q => p.bus.Undisturbed q.bus) (.refl _)
    (fun _ same => same.trans (slice_undisturbed _ _)) n

/-- The status register as the LCD shows it. The sources that the program asks for stay. -/
def shownStatus (p : Panel) : UInt8 :=
  p.bus.registers.stored .stat &&& 0x78 ||| (if p.lcd.coincidence then 0x04 else 0) |||
    p.lcd.mode.code

/-- The two registers show where the LCD stands. -/
structure Published (p : Panel) : Prop where
  line : p.bus.registers.stored .ly = UInt8.ofNat p.lcd.line
  status : p.bus.registers.stored .stat = p.shownStatus

theorem publish_stored_stat (p : Panel) :
    p.publish.bus.registers.stored .stat = p.shownStatus :=
  Registers.stored_put_self _ _ _

/-- The program's part of the status register is shown as it is stored. -/
theorem shownStatus_sources (p : Panel) :
    p.shownStatus &&& 0x78 = p.bus.registers.stored .stat &&& 0x78 := by
  have coincidence : (if p.lcd.coincidence then (0x04 : UInt8) else 0) &&& 0x78 = 0 := by
    split <;> rfl
  have mode : p.lcd.mode.code &&& 0x78 = 0 := by
    cases p.lcd.mode <;> rfl
  rw [shownStatus, or_and_distrib, or_and_distrib, coincidence, mode, UInt8.or_zero, UInt8.or_zero,
    UInt8.and_assoc, UInt8.and_self]

/-- Showing takes nothing from what is shown again. -/
theorem publish_published (p : Panel) : p.publish.Published where
  line := by
    simp only [publish, Bus.store]
    rw [Registers.stored_put_of_ne (by decide), Registers.stored_put_self]
  status := by
    have again : p.publish.shownStatus = p.shownStatus := by
      rw [shownStatus, publish_stored_stat, shownStatus_sources, publish_lcd, shownStatus]
    rw [publish_stored_stat, again]

/-- What is published already does not change by being published again. -/
theorem Published.publish {p : Panel} (published : p.Published) : p.publish = p := by
  have line : p.bus.store .ly (UInt8.ofNat p.lcd.line) = p.bus := by
    rw [← published.line, Bus.store, Registers.put_stored]
  have status : p.bus.store .stat p.shownStatus = p.bus := by
    rw [← published.status, Bus.store, Registers.put_stored]
  have result : p.publish =
    { p with bus := (p.bus.store .ly (UInt8.ofNat p.lcd.line)).store .stat p.shownStatus } := rfl
  rw [result, line, status]

/-- The panel with its frame complete. -/
def completed (p : Panel) : Panel :=
  let q := compare { p with lcd := { p.lcd with line := p.lcd.line + 1, mode := .blank } }
  { lcd := { q.lcd with front := q.lcd.back, back := q.lcd.front, frames := q.lcd.frames + 1 }
    bus := q.bus.request .vblank
    finished := true }

theorem endRest_of_last {p : Panel} (last : p.lcd.line + 1 = 144) : p.endRest = p.completed :=
  if_pos last

theorem endRest_of_ne {p : Panel} (further : p.lcd.line + 1 ≠ 144) :
    p.endRest = { p with lcd := { p.lcd with line := p.lcd.line + 1, mode := .scan } } :=
  if_neg further

theorem endBlankLine_of_last {p : Panel} (last : p.lcd.line = 153) :
    p.endBlankLine = { p with lcd := { p.lcd with line := 0, windowLine := 0, mode := .scan } } :=
  if_pos last

theorem endBlankLine_of_ne {p : Panel} (further : p.lcd.line ≠ 153) :
    p.endBlankLine = compare { p with lcd.line := p.lcd.line + 1 } :=
  if_neg further

/-- The same panel at another dot of its mode, and with a frame completed before it or not. -/
def aside (p : Panel) (d : Nat) (before : Bool) : Panel :=
  { p with lcd.dot := d, finished := before || p.finished }

/-- The same panel at another dot of its mode. -/
def atDot (p : Panel) (d : Nat) : Panel := { p with lcd.dot := d }

/-- The same panel with a frame completed. -/
def done (p : Panel) : Panel := { p with finished := true }

theorem draw_dot (lcd : Lcd) (ram : VideoRam) (d : Nat) :
    ({ lcd with dot := d } : Lcd).draw ram = { lcd.draw ram with dot := d } := by
  unfold Lcd.draw
  by_cases screen : lcd.line.val < 144
  · rw [dif_pos screen, dif_pos screen]
  · rw [dif_neg screen, dif_neg screen]

/-- What follows a mode depends neither on dots nor on frames completed before. -/
theorem endMode_aside (p : Panel) (d : Nat) (before : Bool) :
    (p.aside d before).endMode = p.endMode.aside d before := by
  have same : (p.aside d before).lcd.mode = p.lcd.mode := rfl
  unfold endMode
  rw [same]
  cases p.lcd.mode with
  | scan => rfl
  | transfer => simp only [endTransfer, aside, draw_dot]
  | rest =>
    change (p.aside d before).endRest = p.endRest.aside d before
    by_cases last : p.lcd.line + 1 = 144
    · rw [endRest_of_last last, endRest_of_last (p := p.aside d before) last]
      cases before <;> rfl
    · rw [endRest_of_ne last, endRest_of_ne (p := p.aside d before) last]
      rfl
  | blank =>
    change (p.aside d before).endBlankLine = p.endBlankLine.aside d before
    by_cases last : p.lcd.line = 153
    · rw [endBlankLine_of_last last, endBlankLine_of_last (p := p.aside d before) last]
      rfl
    · rw [endBlankLine_of_ne last, endBlankLine_of_ne (p := p.aside d before) last]
      rfl

theorem endMode_atDot (p : Panel) (d : Nat) : (p.atDot d).endMode = p.endMode.atDot d :=
  endMode_aside p d false

theorem raiseStatus_atDot (p : Panel) (d : Nat) :
    (p.atDot d).raiseStatus = p.raiseStatus.atDot d := by
  rw [raiseStatus_eq, raiseStatus_eq]
  rfl

/-- The panel with the registers latched. -/
def latched (p : Panel) : Panel := { p with lcd.latch := .ofRegisters p.bus.registers }

/-- What becomes of a panel whose mode is over, apart from the dots already run of the next. -/
def turned (p : Panel) : Panel := p.latched.endMode.publish.raiseStatus

/-- What becomes of a panel does not depend on the dots of the next mode. -/
theorem turned_atDot (p : Panel) (d : Nat) : (p.atDot d).turned = p.turned.atDot d := by
  have latched : (p.atDot d).latched = p.latched.atDot d := rfl
  rw [turned, latched, endMode_atDot, turned, ← raiseStatus_atDot]
  rfl

/-- Nothing is left to be shown or requested until the mode ends. -/
structure Settled (p : Panel) : Prop where
  wanted : p.wanted = p.lcd.on
  published : p.lcd.on = true → p.Published
  quiet : p.lcd.on = true → p.lcd.statusLine = p.statusSource
  within : p.lcd.dot < p.lcd.mode.length

theorem advance_of_lt {n : Nat} {p : Panel} (short : p.lcd.dot + n < p.lcd.mode.length) :
    p.advance n = p.atDot (p.lcd.dot + n) :=
  if_pos short

theorem advance_of_le {n : Nat} {p : Panel} (past : p.lcd.mode.length ≤ p.lcd.dot + n) :
    p.advance n = p.latched.endMode.atDot (p.lcd.dot + n - p.lcd.mode.length) := by
  rw [← endMode_atDot]
  exact if_neg (Nat.not_lt.mpr past)

section Settled

variable {m n : Nat} {p : Panel}

theorem Settled.show (settled : p.Settled) (on : p.lcd.on = true) : p.publish.raiseStatus = p := by
  rw [(settled.published on).publish, raiseStatus_eq, settled.quiet on, Bool.and_not_self,
    if_neg (by decide), ← settled.quiet on]

theorem Settled.slice_off (settled : p.Settled) (off : p.lcd.on = false) : p.slice n = p := by
  rw [slice_of_unwanted (settled.wanted.trans off), off, if_neg (by decide)]

theorem Settled.slice_of_lt (settled : p.Settled) (on : p.lcd.on = true)
    (short : p.lcd.dot + n < p.lcd.mode.length) : p.slice n = p.atDot (p.lcd.dot + n) := by
  rw [slice_of_wanted (settled.wanted.trans on), started_of_on on, advance_of_lt short]
  exact (raiseStatus_atDot p.publish _).trans (congrArg (atDot · _) (settled.show on))

/-- A slice past the end of a mode turns the panel. -/
theorem Settled.slice_of_le (settled : p.Settled) (on : p.lcd.on = true)
    (past : p.lcd.mode.length ≤ p.lcd.dot + n) :
    p.slice n = p.turned.atDot (p.lcd.dot + n - p.lcd.mode.length) := by
  rw [slice_of_wanted (settled.wanted.trans on), started_of_on on, advance_of_le past]
  exact raiseStatus_atDot p.latched.endMode.publish _

theorem raiseStatus_published (published : p.Published) : p.raiseStatus.Published := by
  rw [raiseStatus_eq]
  obtain ⟨line, status⟩ := published
  split <;> exact ⟨line, status⟩

theorem raiseStatus_quiet (p : Panel) :
    p.raiseStatus.lcd.statusLine = p.raiseStatus.statusSource := by
  have same : p.raiseStatus.statusSource = p.statusSource := by
    rw [raiseStatus_eq]
    cases p.statusSource && !p.lcd.statusLine <;> rfl
  rw [same, raiseStatus_eq]

/-- Whatever has been shown and requested need not be shown or requested again. -/
theorem settled_show (wanted : p.wanted = true) (on : p.lcd.on = true)
    (within : p.lcd.dot < p.lcd.mode.length) : p.publish.raiseStatus.Settled where
  wanted := by rw [raiseStatus_wanted, publish_wanted, wanted, raiseStatus_on, publish_lcd, on]
  published := fun _ => raiseStatus_published p.publish_published
  quiet := fun _ => raiseStatus_quiet p.publish
  within := by
    rw [raiseStatus_eq]
    exact within

/-- Nothing is promised of the registers while the LCD is off. -/
theorem settled_dark (unwanted : p.wanted = false) (off : p.lcd.on = false)
    (within : p.lcd.dot < p.lcd.mode.length) : p.Settled where
  wanted := unwanted.trans off.symm
  published := fun on => absurd (on.symm.trans off) (by decide)
  quiet := fun on => absurd (on.symm.trans off) (by decide)
  within := within

theorem advance_within (few : n < 80) (within : p.lcd.dot < p.lcd.mode.length) :
    (p.advance n).lcd.dot < (p.advance n).lcd.mode.length := by
  by_cases short : p.lcd.dot + n < p.lcd.mode.length
  · rw [advance_of_lt short]
    exact short
  · rw [advance_of_le (Nat.le_of_not_lt short)]
    have long := p.latched.endMode.lcd.mode.le_length
    change p.lcd.dot + n - p.lcd.mode.length < p.latched.endMode.lcd.mode.length
    omega

theorem started_within (within : p.lcd.dot < p.lcd.mode.length) :
    p.started.lcd.dot < p.started.lcd.mode.length := by
  unfold started
  split
  · exact within
  · change 0 < LcdMode.scan.length
    decide

/-- Every slice leaves a settled panel, on or off. -/
theorem slice_settled (few : n < 80) (within : p.lcd.dot < p.lcd.mode.length) :
    (p.slice n).Settled := by
  by_cases wanted : p.wanted = true
  · rw [slice_of_wanted wanted]
    refine settled_show ?_ ?_ (advance_within few (started_within within))
    · rw [← wanted, ← slice_wanted n p, slice_of_wanted wanted, raiseStatus_wanted, publish_wanted]
    · rw [(advance_moved n _).on, started_on]
  rw [Bool.not_eq_true] at wanted
  have still := (slice_wanted n p).trans wanted
  rw [slice_of_unwanted wanted] at still ⊢
  split at still
  · rename_i on
    rw [if_pos on]
    exact settled_dark still rfl (show 0 < LcdMode.rest.length by decide)
  · rename_i off
    rw [if_neg off]
    exact settled_dark still (Bool.eq_false_iff.mpr off) within

/-- A slice may be cut in two. At most one of the parts, and then the whole, ends the mode. -/
theorem Settled.slice_add (settled : p.Settled) (few : m + n < 80) :
    p.slice (m + n) = (p.slice m).slice n := by
  have first := slice_settled (n := m) (by omega) settled.within
  by_cases on : p.lcd.on = true
  · have within := settled.within
    by_cases past : p.lcd.mode.length ≤ p.lcd.dot + m
    · -- The first part ends the mode, and the second is too short to end another.
      have before := settled.slice_of_le on past
      have long := p.turned.lcd.mode.le_length
      have still : (p.slice m).lcd.on = true := slice_on (settled.wanted.trans on)
      rw [settled.slice_of_le on (Nat.le_trans past (by omega)), before]
      rw [before] at first still
      rw [first.slice_of_lt still]
      · have sum : p.lcd.dot + (m + n) - p.lcd.mode.length =
            p.lcd.dot + m - p.lcd.mode.length + n := by
          omega
        rw [sum]
        rfl
      · change p.lcd.dot + m - p.lcd.mode.length + n < p.turned.lcd.mode.length
        omega
    · have before := settled.slice_of_lt on (Nat.lt_of_not_le past)
      rw [before] at first ⊢
      by_cases short : p.lcd.dot + m + n < p.lcd.mode.length
      · rw [settled.slice_of_lt on (by omega), first.slice_of_lt on short, ← Nat.add_assoc]
        rfl
      · rw [settled.slice_of_le on (by omega), first.slice_of_le on (Nat.le_of_not_lt short),
          turned_atDot, ← Nat.add_assoc]
        rfl
  · rw [Bool.not_eq_true] at on
    rw [settled.slice_off on, settled.slice_off on, settled.slice_off on]

end Settled

theorem Settled.slice_eq_iterate {n : Nat} {p : Panel} (settled : p.Settled) (few : n < 80) :
    p.slice n = (slice 1)^[n] p := by
  induction n with
  | zero =>
    by_cases on : p.lcd.on = true
    · exact settled.slice_of_lt on settled.within
    · exact settled.slice_off (Bool.eq_false_iff.mpr on)
  | succ n ih => rw [settled.slice_add few, ih (by omega), Function.iterate_succ_apply']

/-- A settled panel runs as if it took its dots one by one. -/
theorem Settled.step_eq_iterate {p : Panel} (settled : p.Settled) (n : Nat) :
    p.step n = (slice 1)^[n] p := by
  induction n using Nat.strongRecOn generalizing p with
  | ind n ih =>
    by_cases few : n < 4
    · rcases Nat.eq_zero_or_pos n with rfl | positive
      · rfl
      · rw [step_of_lt p positive.ne' few, settled.slice_eq_iterate (by omega)]
    · obtain ⟨m, rfl⟩ : ∃ m, n = m + 4 := ⟨n - 4, by omega⟩
      rw [step_add_four, ih m (by omega) (slice_settled (by decide) settled.within),
        settled.slice_eq_iterate (by decide), Function.iterate_add_apply]

/-- Two steps of a settled panel are one. -/
theorem Settled.step_add {p : Panel} (settled : p.Settled) (m n : Nat) :
    p.step (m + n) = (p.step m).step n := by
  have next : (p.step m).Settled :=
    step_keeps settled (fun few before => slice_settled (by omega) before.within) m
  rw [settled.step_eq_iterate (m + n), next.step_eq_iterate n, settled.step_eq_iterate m,
    Nat.add_comm, Function.iterate_add_apply]

theorem step_settled {n : Nat} {p : Panel} (within : p.lcd.dot < p.lcd.mode.length)
    (positive : 1 ≤ n) : (p.step n).Settled :=
  step_of_first positive (fun _ few => slice_settled (by omega) within)
    fun few before => slice_settled (by omega) before.within

theorem advance_done (n : Nat) (p : Panel) : p.done.advance n = (p.advance n).done := by
  by_cases short : p.lcd.dot + n < p.lcd.mode.length
  · rw [advance_of_lt short, advance_of_lt (p := p.done) short]
    rfl
  · have past := Nat.le_of_not_lt short
    rw [advance_of_le past, advance_of_le (p := p.done) past]
    exact congrArg (atDot · _) (endMode_aside p.latched p.lcd.dot true)

theorem started_done (p : Panel) : p.done.started = p.started.done := by
  cases on : p.lcd.on with
  | true => rw [started_of_on on, started_of_on (p := p.done) on]
  | false =>
    have dark : ¬p.lcd.on = true := by simp [on]
    rw [started, started, if_neg dark, if_neg (show ¬p.done.lcd.on = true from dark)]
    rfl

/-- The LCD takes no notice of frames completed before. -/
theorem slice_done (n : Nat) (p : Panel) : p.done.slice n = (p.slice n).done := by
  cases wanted : p.wanted with
  | true =>
    rw [slice_of_wanted wanted, slice_of_wanted (p := p.done) wanted, started_done, advance_done,
      raiseStatus_eq, raiseStatus_eq]
    rfl
  | false =>
    rw [slice_of_unwanted wanted, slice_of_unwanted (p := p.done) wanted]
    change (if p.lcd.on then p.switchOff.done else p.done) = _
    split <;> rfl

theorem step_done (n : Nat) (p : Panel) : p.done.step n = (p.step n).done := by
  have whole (k : Nat) (p : Panel) : p.done.slices k = (p.slices k).done := by
    induction k generalizing p with
    | zero => rfl
    | succ k ih => rw [slices, slices, slice_done, ih]
  unfold step
  dsimp only
  split
  · exact whole _ p
  · rw [whole, slice_done]

end Panel

namespace Lcd

theorem Reach.within {lcd : Lcd} {bus : Bus} (reach : lcd.Reach bus) :
    lcd.dot < lcd.mode.length := by
  induction reach with
  | start => decide
  | dots n _ ih =>
    exact Panel.step_keeps (P := fun p => p.lcd.dot < p.lcd.mode.length) ih
      (fun few within => (Panel.slice_settled (by omega) within).within) n
  | other _ _ ih => exact ih

/-- After any dots the LCD is as the program has switched it. -/
theorem Reach.step_on {lcd : Lcd} {bus : Bus} {n : Nat} (reach : lcd.Reach bus) (positive : 1 ≤ n) :
    (lcd.step n bus).lcd.on = bus.lcdWanted := by
  have settled := Panel.step_settled (p := ⟨lcd, bus, false⟩) reach.within positive
  exact settled.wanted.symm.trans (Panel.step_wanted n ⟨lcd, bus, false⟩)

/-- How its dots are cut into steps makes no difference to the LCD: two steps do what one step of
as many dots does, to the LCD and to the bus, and complete a frame if it does. Before them the LCD
must have run at least one dot since anything else happened to the bus. -/
theorem Reach.step_add_dots {lcd : Lcd} {bus : Bus} {k : Nat} (reach : lcd.Reach bus)
    (positive : 1 ≤ k) (m n : Nat) :
    let p := lcd.step k bus
    let q := p.lcd.step m p.bus
    let r := q.lcd.step n q.bus
    p.lcd.step (m + n) p.bus = { r with finished := q.finished || r.finished } := by
  intro p q r
  have settled : (Panel.mk p.lcd p.bus false).Settled := by
    obtain ⟨wanted, published, quiet, within⟩ :=
      Panel.step_settled (p := ⟨lcd, bus, false⟩) reach.within positive
    exact ⟨wanted, fun on => ⟨(published on).line, (published on).status⟩, quiet, within⟩
  have whole : p.lcd.step (m + n) p.bus = q.step n := settled.step_add m n
  rw [whole]
  cases finished : q.finished with
  | false =>
    have same : q = ⟨q.lcd, q.bus, false⟩ := by rw [← finished]
    exact congrArg (Panel.step n) same
  | true =>
    have same : q = Panel.done ⟨q.lcd, q.bus, false⟩ := by rw [Panel.done, ← finished]
    exact (congrArg (Panel.step n) same).trans (Panel.step_done n _)

/-- From one dot before the end of the scan over the whole line. -/
theorem step_add_dots_from_scan :
    let p := initial.step 79 (.boot .standard none)
    let q := p.lcd.step 3 p.bus
    let r := q.lcd.step 454 q.bus
    1 ≤ 79 ∧ p.lcd.step 457 p.bus = { r with finished := q.finished || r.finished } :=
  ⟨by decide, Reach.step_add_dots (.start _) (by decide) 3 454⟩

end Lcd

end DotMatrix
