import DotMatrix.Proofs.Bus.Frame

namespace DotMatrix

namespace Timer

theorem count_interrupt (t : Timer) : t.count.interrupt = t.interrupt := by
  unfold count; split <;> rfl

theorem payOwed_interrupt (t : Timer) : t.payOwed.interrupt = t.interrupt := by
  unfold payOwed; split <;> simp only [count_interrupt]

theorem advance_interrupt (t : Timer) : t.advance.interrupt = t.interrupt := by
  unfold advance; dsimp only; split <;> simp only [count_interrupt]

/-- The interrupt comes with the reload and not before. -/
theorem tick_interrupt (t : Timer) :
    t.tick.interrupt = (t.interrupt || decide (t.countdown = 1)) := by
  rw [tick, advance_interrupt, payOwed_interrupt]
  unfold reload
  split
  · rename_i due
    rw [decide_eq_true due, Bool.or_true]
  · rename_i early
    rw [decide_eq_false early, Bool.or_false]

theorem write_interrupt (t : Timer) (r : Register) (v : UInt8) :
    (t.write r v).interrupt = t.interrupt := by
  unfold write
  cases r with
  | counter => dsimp only; split <;> rfl
  | _ => rfl

/-- Whether the counter takes the modulo in one of the next `n` ticks. -/
def rings (n : Nat) (t : Timer) : Bool := decide (∃ k < n, (step k t).countdown = 1)

/-- The reload comes with the first tick or in those after it. -/
theorem rings_succ (n : Nat) (t : Timer) :
    t.rings (n + 1) = (decide (t.countdown = 1) || t.tick.rings n) := by
  rw [rings, rings, ← Bool.decide_or, decide_eq_decide]
  constructor
  · rintro ⟨k, below, due⟩
    cases k with
    | zero => exact Or.inl due
    | succ k => exact Or.inr ⟨k, Nat.lt_of_succ_lt_succ below, due⟩
  · rintro (due | ⟨k, below, due⟩)
    · exact ⟨0, Nat.succ_pos n, due⟩
    · exact ⟨k + 1, Nat.succ_lt_succ below, due⟩

/-- Several ticks raise the interrupt if a reload lands in one of them. -/
theorem step_interrupt (n : Nat) (t : Timer) :
    (step n t).interrupt = (t.interrupt || t.rings n) := by
  induction n generalizing t with
  | zero => simp [step, rings]
  | succ n ih => rw [step, ih, tick_interrupt, rings_succ, Bool.or_assoc]

end Timer

namespace Bus

theorem writeTimer_interrupt (s : Bus) (w : Writer) (r : Timer.Register) (v : UInt8) :
    (s.writeTimer w r v).timer.interrupt = s.timer.interrupt := by
  unfold writeTimer
  split
  · rfl
  · exact s.timer.write_interrupt r v

theorem writeBy_timer_interrupt (s : Bus) (w : Writer) (a : UInt16) (v : UInt8) :
    (s.writeBy w a v).timer.interrupt = s.timer.interrupt := by
  unfold writeBy
  generalize Cell.ofAddress a = cell
  cases cell with
  | timer r => exact s.writeTimer_interrupt w r v
  | register r =>
    obtain ⟨registers, oam, sound, result⟩ := s.writeRegister_frame w r v
    simp only [writeCell, result]
  | _ => rfl

/-- Between two accesses no interrupt of the timer waits to be passed on. -/
theorem Access.timer_interrupt {s t : Bus} (access : s.Access t)
    (before : s.timer.interrupt = false) : t.timer.interrupt = false := by
  cases access with
  | write w a v => rwa [writeBy_timer_interrupt]
  | time n =>
    unfold stepTimer
    dsimp only
    split <;> rfl
  | _ => exact before

/-- Time on the bus requests the interrupt as a reload lands in it. -/
theorem stepTimer_requested {s : Bus} (fresh : s.timer.interrupt = false) (n : Nat) :
    (s.stepTimer n).requested = s.requested.union (Interrupts.timer.when (s.timer.rings n)) := by
  unfold stepTimer
  rw [requested_ite, Timer.step_interrupt, fresh, Bool.false_or]

end Bus

end DotMatrix
