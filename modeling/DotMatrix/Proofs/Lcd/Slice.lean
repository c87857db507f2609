import DotMatrix.Proofs.Bus.Access
import DotMatrix.Proofs.Interrupts
import DotMatrix.Proofs.Lcd.Position

namespace DotMatrix

/-- Where the LCD stands. -/
def Lcd.position (s : Lcd) : Position := ⟨s.line, s.mode, s.dot, s.frames⟩

namespace Panel

/-- The panel with its LCD on. -/
def started (p : Panel) : Panel := if p.lcd.on then p else p.switchOn

@[simp] theorem started_bus (p : Panel) : p.started.bus = p.bus := by
  unfold started
  split <;> rfl

@[simp] theorem started_finished (p : Panel) : p.started.finished = p.finished := by
  unfold started
  split <;> rfl

@[simp] theorem started_on (p : Panel) : p.started.lcd.on = true := by
  unfold started
  split
  · assumption
  · rfl

/-- How a move leaves the panel: where the LCD stands, and whether a frame is done. -/
structure Moved (position : Position) (done : Bool) (p q : Panel) : Prop where
  position : q.lcd.position = position
  on : q.lcd.on = p.lcd.on
  finished : q.finished = (p.finished || done)
  bus : q.bus = if done then p.bus.request .vblank else p.bus

theorem Moved.inside {position : Position} {done : Bool} {p q : Panel} (undone : done = false)
    (reaches : q.lcd.position = position) (on : q.lcd.on = p.lcd.on)
    (finished : q.finished = p.finished) (bus : q.bus = p.bus) : Moved position done p q where
  position := reaches
  on := on
  finished := by rw [finished, undone, Bool.or_false]
  bus := by rw [bus, undone]; rfl

/-- Drawing changes the frame at the back and the line of the window. -/
theorem draw_frame (lcd : Lcd) (ram : VideoRam) : ∃ back windowLine,
    lcd.draw ram = { lcd with back := back, windowLine := windowLine } := by
  unfold Lcd.draw
  split
  · exact ⟨_, _, rfl⟩
  · exact ⟨lcd.back, lcd.windowLine, rfl⟩

/-- Neither the bus nor what is drawn decides where a mode leads. -/
theorem endMode_moved (p : Panel) : Moved p.lcd.position.turn p.lcd.position.last p p.endMode := by
  have inside (other : p.lcd.mode ≠ .rest) : p.lcd.position.last = false :=
    decide_eq_false fun last => other last.1
  unfold endMode
  cases mode : p.lcd.mode with
  | scan =>
    refine .inside (inside (by simp [mode])) ?_ rfl rfl rfl
    simp only [Position.turn, Lcd.position, mode]
    rfl
  | transfer =>
    obtain ⟨back, windowLine, drawn⟩ := draw_frame p.lcd p.bus.vram
    simp only [endTransfer, drawn]
    refine .inside (inside (by simp [mode])) ?_ rfl rfl rfl
    simp only [Position.turn, Lcd.position, mode]
  | rest =>
    -- Only here can a frame be done.
    simp only [endRest]
    by_cases final : p.lcd.line + 1 = 144
    · rw [if_pos final]
      have last : p.lcd.position.last = true := decide_eq_true ⟨mode, final⟩
      constructor
      · simp only [Position.turn, Lcd.position, mode, if_pos final]
        rfl
      · rfl
      · simp only [last, Bool.or_true]
      · rw [last]
        rfl
    · rw [if_neg final]
      refine .inside (decide_eq_false fun last => final last.2) ?_ rfl rfl rfl
      simp only [Position.turn, Lcd.position, mode, if_neg final]
  | blank =>
    have inside := inside (by simp [mode])
    simp only [endBlankLine]
    by_cases final : p.lcd.line = 153
    · rw [if_pos final]
      refine .inside inside ?_ rfl rfl rfl
      simp only [Position.turn, Lcd.position, mode, if_pos final]
    · rw [if_neg final]
      refine .inside inside ?_ rfl rfl rfl
      simp only [Position.turn, Lcd.position, mode, if_neg final]
      rfl

/-- A few dots move the position by themselves, and request the vertical blank as a frame is
complete. -/
theorem advance_moved (n : Nat) (p : Panel) :
    Moved (p.lcd.position.advance n) (p.lcd.position.completes n) p (p.advance n) := by
  by_cases short : p.lcd.position.dot + n < p.lcd.position.mode.length
  · have stays : p.advance n = { p with lcd.dot := p.lcd.dot + n } := if_pos short
    rw [stays]
    refine .inside ?_ (if_pos short).symm rfl rfl rfl
    rw [Position.completes, decide_eq_false (Nat.not_le.mpr short), Bool.and_false]
  · have position : p.lcd.position.advance n = Position.turn _ := if_neg short
    have completes : p.lcd.position.completes n = p.lcd.position.last := by
      rw [Position.completes, decide_eq_true (Nat.le_of_not_lt short), Bool.and_true]
    have ends : p.advance n = endMode _ := if_neg short
    rw [position, completes, ends]
    obtain ⟨position, on, finished, bus⟩ := endMode_moved _
    exact ⟨position, on, finished, bus⟩

@[simp] theorem publish_lcd (p : Panel) : p.publish.lcd = p.lcd := rfl

@[simp] theorem publish_finished (p : Panel) : p.publish.finished = p.finished := rfl

@[simp] theorem publish_requested (p : Panel) : p.publish.bus.requested = p.bus.requested := rfl

@[simp] theorem publish_wanted (p : Panel) : p.publish.wanted = p.wanted := by
  have kept : p.publish.bus.registers.stored .lcdc = p.bus.registers.stored .lcdc := by
    simp only [publish, Bus.store]
    rw [Registers.stored_put_of_ne (by decide), Registers.stored_put_of_ne (by decide)]
  rw [wanted, kept]
  rfl

/-- What the status sources request. -/
def status (p : Panel) : Interrupts := Interrupts.stat.when (p.statusSource && !p.lcd.statusLine)

/-- The status interrupt is requested as the joined sources rise. -/
theorem raiseStatus_eq (p : Panel) :
    p.raiseStatus =
      { lcd := { p.lcd with statusLine := p.statusSource }
        bus := if p.statusSource && !p.lcd.statusLine then p.bus.request .stat else p.bus
        finished := p.finished } := by
  unfold raiseStatus
  dsimp only
  split <;> rfl

@[simp] theorem raiseStatus_position (p : Panel) : p.raiseStatus.lcd.position = p.lcd.position := by
  rw [raiseStatus_eq]
  rfl

@[simp] theorem raiseStatus_on (p : Panel) : p.raiseStatus.lcd.on = p.lcd.on := by
  rw [raiseStatus_eq]

@[simp] theorem raiseStatus_finished (p : Panel) : p.raiseStatus.finished = p.finished := by
  rw [raiseStatus_eq]

@[simp] theorem raiseStatus_wanted (p : Panel) : p.raiseStatus.wanted = p.wanted := by
  rw [raiseStatus_eq]
  unfold wanted
  dsimp only
  split <;> rfl

theorem raiseStatus_requested (p : Panel) :
    p.raiseStatus.bus.requested = p.bus.requested.union p.status := by
  rw [raiseStatus_eq, status, Bus.requested_ite]

theorem slice_of_wanted {n : Nat} {p : Panel} (wanted : p.wanted = true) :
    p.slice n = (p.started.advance n).publish.raiseStatus := if_pos wanted

@[simp] theorem slice_wanted (n : Nat) (p : Panel) : (p.slice n).wanted = p.wanted := by
  cases wanted : p.wanted with
  | true =>
    rw [slice_of_wanted wanted, raiseStatus_wanted, publish_wanted, Panel.wanted,
      (advance_moved n p.started).bus]
    split <;> rw [started_bus] <;> exact wanted
  | false =>
    rw [slice, wanted, if_neg (by decide)]
    split
    · exact (publish_wanted _).trans wanted
    · exact wanted

section Wanted

variable {n : Nat} {p : Panel} (wanted : p.wanted = true)
include wanted

theorem slice_position :
    (p.slice n).lcd.position = p.started.lcd.position.advance n := by
  rw [slice_of_wanted wanted, raiseStatus_position, publish_lcd, (advance_moved n _).position]

theorem slice_on : (p.slice n).lcd.on = true := by
  rw [slice_of_wanted wanted, raiseStatus_on, publish_lcd, (advance_moved n _).on, started_on]

theorem slice_finished :
    (p.slice n).finished = (p.finished || p.started.lcd.position.completes n) := by
  rw [slice_of_wanted wanted, raiseStatus_finished, publish_finished, (advance_moved n _).finished,
    started_finished]

end Wanted

/-- What the LCD requests in a slice: the vertical blank when it leaves the screen, and a status
interrupt when the first status source becomes active. -/
def sliceRequests (n : Nat) (p : Panel) : Interrupts :=
  if p.wanted then
    (Interrupts.vblank.when (p.started.lcd.position.completes n)).union
      (p.started.advance n).publish.status
  else .empty

/-- A slice takes back no request. -/
theorem slice_requested (n : Nat) (p : Panel) :
    (p.slice n).bus.requested = p.bus.requested.union (p.sliceRequests n) := by
  unfold sliceRequests
  split
  · rename_i wanted
    rw [slice_of_wanted wanted, raiseStatus_requested, publish_requested, (advance_moved n _).bus,
      Bus.requested_ite, started_bus, Interrupts.union_assoc]
  · rename_i unwanted
    rw [slice, if_neg unwanted, Interrupts.union_empty]
    split <;> rfl

/-- What whole slices request. -/
def slicesRequests : Nat → Panel → Interrupts
  | 0, _ => .empty
  | k + 1, p => (p.sliceRequests 4).union (slicesRequests k (p.slice 4))

/-- By induction on the slices, all that they request is added. -/
theorem slices_requested (k : Nat) (p : Panel) :
    (p.slices k).bus.requested = p.bus.requested.union (p.slicesRequests k) := by
  induction k generalizing p with
  | zero => rw [slicesRequests, Interrupts.union_empty, slices]
  | succ k ih => rw [slices, slicesRequests, ih, slice_requested, Interrupts.union_assoc]

/-- What a step requests, in the slices that it is cut into. -/
def stepRequests (n : Nat) (p : Panel) : Interrupts :=
  (p.slicesRequests (n / 4)).union
    (if n % 4 = 0 then .empty else (p.slices (n / 4)).sliceRequests (n % 4))

/-- A step adds its requests to those on the bus, and takes none back. -/
theorem step_requested (n : Nat) (p : Panel) :
    (p.step n).bus.requested = p.bus.requested.union (p.stepRequests n) := by
  unfold step stepRequests
  dsimp only
  split
  · rw [slices_requested, Interrupts.union_empty]
  · rw [slice_requested, slices_requested, Interrupts.union_assoc]

theorem publish_leads (p : Panel) : p.bus.Leads p.publish.bus :=
  .tail (.single (.store .ly _)) (.store .stat _)

theorem slice_leads (n : Nat) (p : Panel) : p.bus.Leads (p.slice n).bus := by
  by_cases wanted : p.wanted = true
  · have moved := (advance_moved n p.started).bus
    rw [started_bus] at moved
    have first : p.bus.Leads (p.started.advance n).bus := by
      rw [moved]
      exact Bus.leads_request_ite p.bus (by simp) _
    rw [slice_of_wanted wanted, raiseStatus_eq]
    exact (first.trans (publish_leads _)).trans (Bus.leads_request_ite _ (by simp) _)
  · rw [slice, if_neg wanted]
    split
    · exact .tail (.single (.store .ly _)) (.store .stat _)
    · exact .refl

/-- What every slice keeps is kept by any number of dots. -/
theorem step_keeps {P : Panel → Prop} {p : Panel} (start : P p)
    (slice : ∀ {q : Panel} {k : Nat}, k ≤ 4 → P q → P (q.slice k)) (n : Nat) : P (p.step n) := by
  have whole (k : Nat) : P (p.slices k) := by
    induction k generalizing p with
    | zero => exact start
    | succ k ih => exact ih (slice le_rfl start)
  have few : n % 4 ≤ 4 := (Nat.mod_lt n (by decide)).le
  unfold step
  dsimp only
  split
  · exact whole _
  · exact slice few (whole _)

theorem step_leads (n : Nat) (p : Panel) : p.bus.Leads (p.step n).bus :=
  step_keeps (P := fun q => p.bus.Leads q.bus) .refl
    (fun _ leads => leads.trans (slice_leads _ _)) n

end Panel

end DotMatrix
