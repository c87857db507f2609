import DotMatrix.Timer
import Mathlib.Data.List.Basic
import Mathlib.Data.List.Induction
import Mathlib.Tactic.SplitIfs

namespace DotMatrix.Timer

/-- What is done to a timer from outside, at any address. -/
inductive Operation
  | tick
  | write (a : UInt16) (v : UInt8)
  | takeInterrupt

/-- What an operation does to the timer. -/
def apply (t : Timer) : Operation → Timer
  | .tick => t.tick
  | .write a v => t.writeAt a v
  | .takeInterrupt => { t with interrupt := false }

/-- The operations in order. -/
def run (t : Timer) (ops : List Operation) : Timer := ops.foldl apply t

theorem run_concat (t : Timer) (ops : List Operation) (op : Operation) :
    t.run (ops ++ [op]) = (t.run ops).apply op := by
  rw [run, List.foldl_append]
  rfl

/-- A new timer, with the divider that a board has at first or with none. -/
def fresh : Option Revision → Timer
  | none => stopped
  | some revision => boot revision

/-- The signal whose falling edges count. -/
def watched (t : Timer) : Bool := level t.divider t.control

/-- Since the last tick a write to the divider or the control has taken the signal down. -/
def Fell (start : Timer) (ops : List Operation) : Prop :=
  ∃ before a v after, ops = before ++ .write a v :: after ∧ (a = 0xFF04 ∨ a = 0xFF07) ∧
    .tick ∉ after ∧ (start.run before).watched = true ∧
    (start.run (before ++ [.write a v])).watched = false

/-- The write by which it has fallen either was there before the last operation or is the last. -/
theorem fell_concat {start : Timer} {ops : List Operation} {op : Operation} :
    Fell start (ops ++ [op]) ↔ op ≠ .tick ∧ Fell start ops ∨
      ∃ a v, op = .write a v ∧ (a = 0xFF04 ∨ a = 0xFF07) ∧ (start.run ops).watched = true ∧
        ((start.run ops).writeAt a v).watched = false := by
  constructor
  · rintro ⟨before, a, v, after, same, clock, silent, up, down⟩
    rcases List.eq_nil_or_concat' after with rfl | ⟨rest, last, rfl⟩
    · obtain ⟨rfl, isLast⟩ := List.append_inj' same rfl
      rw [run_concat] at down
      exact Or.inr ⟨a, v, List.singleton_inj.mp isLast, clock, up, down⟩
    · rw [← List.cons_append, ← List.append_assoc] at same
      obtain ⟨earlier, isLast⟩ := List.append_inj' same rfl
      obtain rfl := List.singleton_inj.mp isLast
      have other : op ≠ .tick := fun isTick => silent (by simp [isTick])
      have quiet : .tick ∉ rest := fun member => silent (List.mem_append_left _ member)
      exact Or.inl ⟨other, before, a, v, rest, earlier, clock, quiet, up, down⟩
  · rintro (⟨other, before, a, v, after, same, clock, silent, up, down⟩ | ⟨a, v, same, clock, up, down⟩)
    · refine ⟨before, a, v, after ++ [op], by rw [same]; simp, clock, ?_, up, down⟩
      simpa [silent] using other.symm
    · refine ⟨ops, a, v, [], by rw [same], clock, by simp, up, ?_⟩
      rw [run_concat]
      exact down

theorem not_fell_nil {start : Timer} : ¬Fell start [] := by
  rintro ⟨before, a, v, after, same, _⟩
  simp at same

variable (t : Timer)

theorem count_counter : t.count.counter = t.counter + 1 := by
  unfold count
  split
  · rename_i full
    rw [full]
    rfl
  · rfl

theorem count_reloaded : t.count.reloaded = t.reloaded := by
  unfold count; split <;> rfl

theorem count_owed : t.count.owed = t.owed := by
  unfold count; split <;> rfl

theorem reload_signal : t.reload.signal = t.signal := by
  unfold reload; split <;> rfl

theorem reload_owed : t.reload.owed = t.owed := by
  unfold reload; split <;> rfl

theorem reload_reloaded : t.reload.reloaded = true ↔ t.countdown = 1 := by
  unfold reload; split <;> simp [*]

theorem reload_counter :
    t.reload.counter = if t.countdown = 1 then t.modulo else t.counter := by
  unfold reload; split <;> rfl

theorem payOwed_signal : t.payOwed.signal = t.signal := by
  unfold payOwed; split <;> simp only [count_signal]

theorem payOwed_reloaded : t.payOwed.reloaded = t.reloaded := by
  unfold payOwed; split <;> simp only [count_reloaded]

theorem payOwed_owed : t.payOwed.owed = false := by
  unfold payOwed
  split
  · rw [count_owed]
  · rename_i clear
    exact Bool.eq_false_iff.mpr clear

theorem payOwed_counter : t.payOwed.counter = t.counter + if t.owed then 1 else 0 := by
  unfold payOwed
  split
  · rw [count_counter]
  · rw [UInt8.add_zero]

theorem advance_reloaded : t.advance.reloaded = t.reloaded := by
  unfold advance; dsimp only; split <;> simp only [count_reloaded]

theorem advance_owed : t.advance.owed = t.owed := by
  unfold advance; dsimp only; split <;> simp only [count_owed]

/-- The tick's own edge is the signal remembered against the one that comes. -/
theorem advance_counter : t.advance.counter =
    t.counter + if t.signal && !level (t.divider + 1) t.control then 1 else 0 := by
  unfold advance
  dsimp only
  split
  · rw [count_counter]
  · rw [UInt8.add_zero]

theorem tick_reloaded : t.tick.reloaded = true ↔ t.countdown = 1 := by
  rw [tick, advance_reloaded, payOwed_reloaded, reload_reloaded]

theorem tick_owed : t.tick.owed = false := by
  rw [tick, advance_owed, payOwed_owed]

/-- A tick loads the modulo if a reload lands, and then counts the edge that is owed and the one
that it makes itself. -/
theorem tick_counter : t.tick.counter =
    (if t.countdown = 1 then t.modulo else t.counter) + (if t.owed then 1 else 0) +
      (if t.signal && !t.tick.watched then 1 else 0) := by
  rw [watched, tick_divider, tick_control, tick, advance_counter, payOwed_counter,
    payOwed_signal, payOwed_divider, payOwed_control, reload_counter, reload_signal, reload_owed,
    reload_divider, reload_control]

theorem writeAt_eq (a : UInt16) (v : UInt8) : t.writeAt a v =
    if a = 0xFF04 then t.clearDivider
    else if a = 0xFF05 then t.write .counter v
    else if a = 0xFF06 then t.write .modulo v
    else if a = 0xFF07 then t.write .control v
    else t := by
  unfold writeAt Register.at?
  split_ifs <;> rfl

theorem clearDivider_watched : t.clearDivider.watched = false := by
  simp [clearDivider, watched, level]

theorem writeCounter_eq (v : UInt8) :
    ∃ counter countdown, t.write .counter v = { t with counter := counter, countdown := countdown } := by
  unfold write
  dsimp only
  split
  · exact ⟨t.counter, t.countdown, rfl⟩
  · exact ⟨v, 0, rfl⟩

/-- What is remembered of the signal stays true. -/
theorem apply_signal {t : Timer} (known : t.signal = t.watched) (op : Operation) :
    (t.apply op).signal = (t.apply op).watched := by
  cases op with
  | tick => exact t.tick_signal
  | takeInterrupt => exact known
  | write a v =>
    rw [apply, writeAt_eq]
    split_ifs
    · rw [clearDivider_watched]
      rfl
    · obtain ⟨_, _, written⟩ := t.writeCounter_eq v
      rw [written]
      exact known
    · exact known
    · rfl
    · exact known

/-- A write owes an edge exactly if it reaches the divider or the control and takes the signal
down. -/
theorem writeAt_owed (a : UInt16) (v : UInt8) : (t.writeAt a v).owed = true ↔
    t.owed = true ∨ (a = 0xFF04 ∨ a = 0xFF07) ∧ t.watched = true ∧
      (t.writeAt a v).watched = false := by
  rw [writeAt_eq]
  split_ifs with divider counter modulo control
  · have owed : t.clearDivider.owed = (t.owed || t.watched) := rfl
    simp [divider, owed, clearDivider_watched]
  · obtain ⟨_, _, written⟩ := t.writeCounter_eq v
    simp [counter, written]
  · simp [modulo, write]
  · have owed : (t.write .control v).owed = (t.owed || t.watched && !(t.write .control v).watched) :=
      rfl
    simp [control, owed]
  · simp [divider, control]

/-- Since the signal is remembered as it is, an edge is owed exactly if it has fallen by a write. -/
theorem run_follows (origin : Option Revision) (ops : List Operation) :
    ((fresh origin).run ops).signal = ((fresh origin).run ops).watched ∧
      (((fresh origin).run ops).owed = true ↔ Fell (fresh origin) ops) := by
  induction ops using List.reverseRecOn with
  | nil =>
    have low : (fresh origin).signal = (fresh origin).watched ∧ (fresh origin).owed = false := by
      cases origin with
      | none => decide
      | some revision => cases revision <;> decide
    exact ⟨low.1, by simp [run, low.2, not_fell_nil]⟩
  | append_singleton ops op ih =>
    obtain ⟨known, owed⟩ := ih
    rw [run_concat, fell_concat, ← owed]
    refine ⟨apply_signal known op, ?_⟩
    cases op with
    | tick => simp [apply, tick_owed]
    | takeInterrupt => simp [apply]
    | write a v => simp [apply, writeAt_owed]

/-- A timer counts the falling edges of its signal and nothing else. What it remembers of the
signal is the signal. A tick loads the modulo if a reload lands on it, and then adds an edge for the
writes since the last tick if one of them has made it, and another if it makes one itself by moving
the divider on. Besides ticks only writes to the counter or the modulo change the counter. -/
theorem counts_falling_edges (origin : Option Revision) (ops : List Operation)
    [Decidable (Fell (fresh origin) ops)] :
    let t := (fresh origin).run ops
    t.signal = (t.control.toNat.testBit 2 && t.divider.toNat.testBit (watchedBit t.control)) ∧
    (t.tick.divider = t.divider + 1 ∧ t.tick.control = t.control) ∧
    (t.tick.reloaded = true ↔ t.countdown = 1) ∧
    t.tick.counter = (if t.countdown = 1 then t.modulo else t.counter) +
      (if Fell (fresh origin) ops then 1 else 0) +
      (if t.watched && !t.tick.watched then 1 else 0) ∧
    ∀ op, op = .tick ∨ (∃ v, op = .write 0xFF05 v) ∨ (∃ v, op = .write 0xFF06 v) ∨
      (t.apply op).counter = t.counter := by
  intro t
  obtain ⟨known, owed⟩ : t.signal = t.watched ∧ (t.owed = true ↔ Fell (fresh origin) ops) :=
    run_follows origin ops
  refine ⟨known, ⟨t.tick_divider, t.tick_control⟩, t.tick_reloaded, ?_, fun op => ?_⟩
  · rw [tick_counter, known]
    simp only [owed]
  · cases op with
    | tick => exact Or.inl rfl
    | takeInterrupt => exact Or.inr (Or.inr (Or.inr rfl))
    | write a v =>
      rw [apply, writeAt_eq]
      split_ifs with divider counter modulo control
      · exact Or.inr (Or.inr (Or.inr rfl))
      · exact Or.inr (Or.inl ⟨v, by rw [counter]⟩)
      · exact Or.inr (Or.inr (Or.inl ⟨v, by rw [modulo]⟩))
      · exact Or.inr (Or.inr (Or.inr rfl))
      · exact Or.inr (Or.inr (Or.inr rfl))

example : (stopped.run (.write 0xFF07 5 :: List.replicate 15 .tick ++
    [.write 0xFF07 0, .write 0xFF07 5, .tick])).counter = 2 := by decide +kernel

end DotMatrix.Timer
