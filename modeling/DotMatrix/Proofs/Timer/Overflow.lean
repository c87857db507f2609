import DotMatrix.Proofs.Timer
import DotMatrix.Proofs.Timer.Edges
import Mathlib.Tactic.SplitIfs

namespace DotMatrix.Timer

theorem watchedBit_cases (control : UInt8) :
    watchedBit control = 3 ∨ watchedBit control = 5 ∨ watchedBit control = 7 ∨
      watchedBit control = 9 := by
  unfold watchedBit
  split <;> simp

/-- The signal in numbers, the watched bit while counting is enabled. -/
theorem level_iff (divider : UInt16) (control : UInt8) : level divider control = true ↔
    control.toNat.testBit 2 = true ∧ divider.toNat / 2 ^ watchedBit control % 2 = 1 := by
  rw [level, Bool.and_eq_true, Nat.testBit_eq_decide_div_mod_eq (i := watchedBit control),
    decide_eq_true_iff]

/-- A watched bit that is low stays up for eight ticks once it rises. -/
theorem level_add_succ {divider : UInt16} {control : UInt8} {k : Nat}
    (low : level divider control = false) (soon : k < 8)
    (up : level (divider + UInt16.ofNat k) control = true) :
    level (divider + UInt16.ofNat (k + 1)) control = true := by
  rw [level_iff] at up ⊢
  rw [← Bool.not_eq_true, level_iff] at low
  have clear : ¬divider.toNat / 2 ^ watchedBit control % 2 = 1 := fun set => low ⟨up.1, set⟩
  have bound := divider.toNat_lt
  have high := up.2
  refine ⟨up.1, ?_⟩
  rw [UInt16.toNat_add, UInt16.toNat_ofNat'] at high ⊢
  rcases watchedBit_cases control with bit | bit | bit | bit
  all_goals
    rw [bit] at high clear ⊢
    omega

variable (t : Timer)

/-- The edges that the next tick counts: one that is owed and one that it makes itself. -/
def edges : Nat := t.owed.toNat + (t.signal && !t.tick.watched).toNat

theorem tick_watched : t.tick.watched = level (t.divider + 1) t.control := by
  rw [watched, tick_divider, tick_control]

theorem count_modulo : t.count.modulo = t.modulo := by
  unfold count; split <;> rfl

theorem count_countdown : t.count.countdown = if t.counter = 0xFF then 4 else t.countdown := by
  unfold count; split <;> rfl

theorem payOwed_countdown : t.payOwed.countdown =
    if t.owed = true ∧ t.counter = 0xFF then 4 else t.countdown := by
  unfold payOwed
  split
  · rename_i owed
    rw [count_countdown]
    simp only [owed, true_and]
  · rename_i clear
    rw [if_neg fun both => clear both.1]

theorem advance_countdown : t.advance.countdown =
    if (t.signal && !level (t.divider + 1) t.control) = true ∧ t.counter = 0xFF then 4
    else t.countdown := by
  unfold advance
  dsimp only
  split
  · rename_i fell
    rw [count_countdown]
    simp only [fell, true_and]
  · rename_i still
    rw [if_neg fun both => still both.1]

theorem reload_countdown : t.reload.countdown = t.countdown - 1 := by
  unfold reload
  split
  · rename_i due
    rw [due]
  · rfl

theorem tick_modulo : t.tick.modulo = t.modulo := by
  have advanced (u : Timer) : u.advance.modulo = u.modulo := by
    unfold advance; dsimp only; split <;> simp only [count_modulo]
  have paid (u : Timer) : u.payOwed.modulo = u.modulo := by
    unfold payOwed; split <;> simp only [count_modulo]
  rw [tick, advanced, paid]
  unfold reload; split <;> rfl

/-- A tick counts its edges from the counter, or from the modulo if a reload lands on it. -/
theorem tick_counter_toNat :
    t.tick.counter.toNat = ((if t.countdown = 1 then t.modulo else t.counter).toNat + t.edges) % 256 := by
  rw [tick_counter, edges]
  generalize (if t.countdown = 1 then t.modulo else t.counter) = c
  cases t.owed <;> cases (t.signal && !t.tick.watched) <;>
    simp [UInt8.toNat_add]

/-- It starts a new delay exactly if they take the counter over. -/
theorem tick_countdown : t.tick.countdown =
    if 256 ≤ (if t.countdown = 1 then t.modulo else t.counter).toNat + t.edges then 4
    else t.countdown - 1 := by
  rw [edges, tick_watched, tick, advance_countdown, payOwed_countdown, payOwed_counter,
    payOwed_signal, payOwed_divider, payOwed_control, reload_counter, reload_signal, reload_owed,
    reload_divider, reload_control, reload_countdown]
  generalize (if t.countdown = 1 then t.modulo else t.counter) = c
  have bound := c.toNat_lt
  have full : c = 0xFF ↔ c.toNat = 255 := UInt8.toNat_inj.symm
  have last : c + 1 = 0xFF ↔ c.toNat = 254 := by
    rw [← UInt8.toNat_inj, UInt8.toNat_add]
    simp only [UInt8.reduceToNat]
    omega
  cases t.owed <;> cases t.signal && !level (t.divider + 1) t.control <;>
    simp [full, last] <;> grind

/-- A write to the divider or the control, the two registers that can move the signal. -/
def Operation.movesSignal : Operation → Bool
  | .write a _ => a == 0xFF04 || a == 0xFF07
  | _ => false

/-- Two writes to the divider or the control have a tick between them. -/
def Spaced (ops : List Operation) : Prop :=
  ∀ before first between second after, ops = before ++ first :: (between ++ second :: after) →
    first.movesSignal = true → second.movesSignal = true → .tick ∈ between

/-- How many operations of a history are ticks. -/
def ticks : List Operation → Nat
  | [] => 0
  | .tick :: rest => ticks rest + 1
  | _ :: rest => ticks rest

theorem ticks_of_ne {op : Operation} (other : op ≠ .tick) (rest : List Operation) :
    ticks (op :: rest) = ticks rest := by
  cases op with
  | tick => exact absurd rfl other
  | _ => rfl

/-- The edges that the ticks of a history count. -/
def counted : Timer → List Operation → Nat
  | _, [] => 0
  | t, .tick :: rest => t.edges + counted t.tick rest
  | t, op :: rest => counted (t.apply op) rest

variable {t}

/-- A tick on which no reload lands. -/
theorem tick_of_early (early : t.countdown ≠ 1) :
    t.tick.reloaded = false ∧ t.tick.interrupt = t.interrupt := by
  refine ⟨?_, ?_⟩
  · rwa [← Bool.not_eq_true, tick_reloaded]
  · rw [tick_interrupt, decide_eq_false early, Bool.or_false]

/-- An operation that does not move the signal leaves it as it is. -/
theorem watched_of_not_movesSignal {op : Operation} (other : op ≠ .tick)
    (keeps : op.movesSignal = false) : (t.apply op).watched = t.watched := by
  cases op with
  | tick => exact absurd rfl other
  | takeInterrupt => rfl
  | write a v =>
    simp only [Operation.movesSignal, Bool.or_eq_false_iff, beq_eq_false_iff_ne] at keeps
    rw [apply, writeAt_eq, if_neg keeps.1, if_neg keeps.2]
    split_ifs
    · obtain ⟨_, _, written⟩ := t.writeCounter_eq v
      rw [written]
      rfl
    · rfl
    · rfl

theorem watched_run {ops : List Operation} (silent : .tick ∉ ops)
    (keeps : ∀ op ∈ ops, op.movesSignal = false) : (t.run ops).watched = t.watched := by
  induction ops generalizing t with
  | nil => rfl
  | cons op rest ih =>
    have other : op ≠ .tick := fun same => silent (same ▸ List.mem_cons_self)
    have first := watched_of_not_movesSignal (t := t) other (keeps op List.mem_cons_self)
    have later := ih (t := t.apply op) (fun member => silent (List.mem_cons_of_mem _ member))
      (fun next member => keeps next (List.mem_cons_of_mem _ member))
    exact later.trans first

/-- While an edge is owed the signal is down, since it cannot have been raised again. -/
theorem Spaced.low {origin : Option Revision} {ops : List Operation} (spaced : Spaced ops)
    (owed : ((fresh origin).run ops).owed = true) :
    ((fresh origin).run ops).watched = false := by
  obtain ⟨before, a, v, after, same, clock, silent, -, down⟩ :=
    (run_follows origin ops).2.mp owed
  have moves : (Operation.write a v).movesSignal = true := by
    simpa [Operation.movesSignal] using clock
  have keeps : ∀ op ∈ after, op.movesSignal = false := by
    intro op member
    obtain ⟨between, rest, split⟩ := List.append_of_mem member
    by_contra up
    have tick := spaced before (.write a v) between op rest (by rw [same, split]) moves
      (Bool.not_eq_false _ ▸ up)
    exact silent (split ▸ List.mem_append_left _ tick)
  have parts : before ++ .write a v :: after = (before ++ [.write a v]) ++ after := by simp
  rw [same, parts, run, List.foldl_append]
  exact (watched_run silent keeps).trans down

/-- In the next `left` ticks no edge is counted and no reload lands before the last of them. -/
structure Calm (left : Nat) (pending : Bool) (t : Timer) : Prop where
  known : t.signal = t.watched
  paid : t.owed = false
  writable : t.reloaded = false
  interrupt : t.interrupt = pending
  due : t.countdown = 0 ∨ t.countdown = left
  steady : ∀ k < left, level (t.divider + UInt16.ofNat k) t.control = true →
    level (t.divider + UInt16.ofNat (k + 1)) t.control = true

theorem Calm.edges {left : Nat} {pending : Bool} (calm : Calm (left + 1) pending t) :
    t.edges = 0 := by
  have still : (t.signal && !t.tick.watched) = false := by
    have next := calm.steady 0 left.succ_pos
    rw [calm.known, tick_watched, watched, Bool.and_eq_false_imp, Bool.not_eq_false']
    simpa using next
  rw [Timer.edges, calm.paid, still]
  rfl

theorem Calm.early {left : Nat} {pending : Bool} (calm : Calm (left + 2) pending t) :
    t.countdown ≠ 1 := by
  have := calm.due
  omega

theorem Calm.tick_counter {left : Nat} {pending : Bool} (calm : Calm (left + 2) pending t) :
    t.tick.counter = t.counter := by
  rw [← UInt8.toNat_inj, tick_counter_toNat, if_neg calm.early, calm.edges, Nat.add_zero,
    Nat.mod_eq_of_lt t.counter.toNat_lt]

theorem Calm.tick_countdown {left : Nat} {pending : Bool} (calm : Calm (left + 1) pending t) :
    t.tick.countdown = t.countdown - 1 := by
  have room : ¬256 ≤ (if t.countdown = 1 then t.modulo else t.counter).toNat + t.edges := by
    rw [calm.edges]
    exact Nat.not_le.mpr (UInt8.toNat_lt _)
  rw [Timer.tick_countdown, if_neg room]

/-- A tick leaves a calm timer with one tick less. -/
theorem Calm.tick {left : Nat} {pending : Bool} (calm : Calm (left + 2) pending t) :
    Calm (left + 1) pending t.tick where
  known := t.tick_signal
  paid := t.tick_owed
  writable := (tick_of_early calm.early).1
  interrupt := (tick_of_early calm.early).2.trans calm.interrupt
  due := by
    rw [calm.tick_countdown]
    have := calm.due
    omega
  steady := by
    intro k soon
    have later := calm.steady (k + 1) (Nat.succ_lt_succ soon)
    rw [tick_divider, tick_control]
    have shift (j : Nat) : t.divider + 1 + UInt16.ofNat j = t.divider + UInt16.ofNat (j + 1) := by
      rw [UInt16.add_assoc, UInt16.add_comm 1, UInt16.ofNat_add, UInt16.ofNat_one]
    rwa [shift, shift]

/-- A write to the counter ends a countdown, unless a reload has just landed. -/
theorem writeCounter {v : UInt8} (writable : t.reloaded = false) :
    t.writeAt 0xFF05 v = { t with counter := v, countdown := 0 } := by
  rw [writeAt_eq, if_neg (by decide), if_pos rfl, write]
  simp only [writable, Bool.false_eq_true, if_false]

/-- A write to the modulo goes through to the counter right after a reload. -/
theorem writeModulo {v : UInt8} :
    t.writeAt 0xFF06 v = { t with modulo := v, counter := if t.reloaded then v else t.counter } := by
  rw [writeAt_eq, if_neg (by decide), if_neg (by decide), if_pos rfl, write]


theorem writeModulo_of_writable (writable : t.reloaded = false) (v : UInt8) :
    t.writeAt 0xFF06 v = { t with modulo := v } := by
  rw [writeModulo]
  simp only [writable, Bool.false_eq_true, if_false]

/-- Writes to counter and modulo do not disturb a calm timer, nor do its ticks. -/
theorem Calm.run {left : Nat} {pending : Bool} {ops : List Operation}
    (calm : Calm (ticks ops + left + 1) pending t)
    (mild : ∀ op ∈ ops, op = .tick ∨ (∃ v, op = .write 0xFF05 v) ∨ ∃ v, op = .write 0xFF06 v) :
    Calm (left + 1) pending (t.run ops) := by
  induction ops generalizing t with
  | nil => rwa [ticks, Nat.zero_add] at calm
  | cons op rest ih =>
    have later := fun next member => mild next (List.mem_cons_of_mem _ member)
    rcases mild op List.mem_cons_self with rfl | ⟨v, rfl⟩ | ⟨v, rfl⟩
    · refine ih (t := t.tick) (Calm.tick ?_) later
      convert calm using 1
      rw [ticks]
      omega
    · refine ih (t := t.writeAt 0xFF05 v) ?_ later
      rw [writeCounter calm.writable]
      exact { calm with due := Or.inl rfl }
    · refine ih (t := t.writeAt 0xFF06 v) ?_ later
      rw [writeModulo_of_writable calm.writable]
      exact { calm with }

/-- A write to the counter calls off the reload that is due. -/
theorem Calm.cancelled {left : Nat} {pending : Bool} (calm : Calm left pending t) (v : UInt8) :
    let u := t.writeAt 0xFF05 v
    u.counter = v ∧ u.countdown = 0 ∧ u.reloaded = false ∧ u.interrupt = pending := by
  rw [writeCounter calm.writable]
  exact ⟨rfl, rfl, calm.writable, calm.interrupt⟩

/-- The counter has run over and `left` ticks remain to the reload. -/
structure Waiting (left : Nat) (pending : Bool) (t : Timer) : Prop extends Calm left pending t where
  empty : t.counter = 0
  countdown : t.countdown = left

theorem Waiting.tick {left : Nat} {pending : Bool} (waiting : Waiting (left + 2) pending t) :
    Waiting (left + 1) pending t.tick where
  toCalm := waiting.toCalm.tick
  empty := waiting.toCalm.tick_counter.trans waiting.empty
  countdown := by
    rw [waiting.toCalm.tick_countdown, waiting.countdown]
    rfl

theorem Waiting.writeModulo {left : Nat} {pending : Bool} {v : UInt8}
    (waiting : Waiting left pending t) : Waiting left pending (t.writeAt 0xFF06 v) := by
  rw [writeModulo_of_writable waiting.writable]
  exact { waiting with }

/-- By induction on the operations, as many ticks less remain as are among them. -/
theorem Waiting.run {left : Nat} {pending : Bool} {ops : List Operation}
    (waiting : Waiting (ticks ops + left + 1) pending t)
    (mild : ∀ op ∈ ops, op = .tick ∨ ∃ v, op = .write 0xFF06 v) :
    Waiting (left + 1) pending (t.run ops) := by
  induction ops generalizing t with
  | nil => rwa [ticks, Nat.zero_add] at waiting
  | cons op rest ih =>
    have later := fun next member => mild next (List.mem_cons_of_mem _ member)
    rcases mild op List.mem_cons_self with rfl | ⟨v, rfl⟩
    · refine ih (t := t.tick) (Waiting.tick ?_) later
      convert waiting using 1
      rw [ticks]
      omega
    · exact ih (t := t.writeAt 0xFF06 v) waiting.writeModulo later

/-- The last tick made the counter take the modulo. -/
structure Landed (t : Timer) : Prop where
  reloaded : t.reloaded = true
  counter : t.counter = t.modulo
  interrupt : t.interrupt = true

/-- The last tick loads the modulo and raises the interrupt. -/
theorem Waiting.lands {pending : Bool} (waiting : Waiting 1 pending t) : Landed t.tick where
  reloaded := t.tick_reloaded.mpr waiting.countdown
  counter := by
    rw [← UInt8.toNat_inj, tick_counter_toNat, if_pos waiting.countdown, waiting.toCalm.edges,
      Nat.add_zero, Nat.mod_eq_of_lt t.modulo.toNat_lt, tick_modulo]
  interrupt := by
    rw [tick_interrupt, decide_eq_true waiting.countdown, Bool.or_true]

/-- Right after a reload the new modulo is in the counter as well. -/
theorem writeModulo_of_reloaded (reloaded : t.reloaded = true) (v : UInt8) :
    t.writeAt 0xFF06 v = { t with modulo := v, counter := v } := by
  rw [writeModulo]
  simp only [reloaded, if_true]

theorem writeCounter_of_reloaded (reloaded : t.reloaded = true) (v : UInt8) :
    t.writeAt 0xFF05 v = t := by
  rw [writeAt_eq, if_neg (by decide), if_pos rfl, write]
  simp only [reloaded, if_true]

theorem Landed.writeModulo {v : UInt8} (landed : Landed t) : Landed (t.writeAt 0xFF06 v) := by
  rw [writeModulo_of_reloaded landed.reloaded]
  exact { landed with counter := rfl }

/-- Writes to the modulo keep the counter at it until the next tick. -/
theorem Landed.run {ops : List Operation} (landed : Landed t) (silent : ticks ops = 0)
    (mild : ∀ op ∈ ops, op = .tick ∨ ∃ v, op = .write 0xFF06 v) : Landed (t.run ops) := by
  induction ops generalizing t with
  | nil => exact landed
  | cons op rest ih =>
    have later := fun next member => mild next (List.mem_cons_of_mem _ member)
    rcases mild op List.mem_cons_self with rfl | ⟨v, rfl⟩
    · cases silent
    · exact ih (t := t.writeAt 0xFF06 v) landed.writeModulo silent later

/-- The tick that ends the delay may be anywhere in a history that has as many ticks as remain. -/
theorem Waiting.lands_run {left : Nat} {pending : Bool} {ops : List Operation}
    (waiting : Waiting (left + 1) pending t) (all : ticks ops = left + 1)
    (mild : ∀ op ∈ ops, op = .tick ∨ ∃ v, op = .write 0xFF06 v) : Landed (t.run ops) := by
  induction ops generalizing t left with
  | nil => cases all
  | cons op rest ih =>
    have later := fun next member => mild next (List.mem_cons_of_mem _ member)
    rcases mild op List.mem_cons_self with rfl | ⟨v, rfl⟩
    · rw [ticks, Nat.add_right_cancel_iff] at all
      cases left with
      | zero => exact waiting.lands.run all later
      | succ left => exact ih (t := t.tick) waiting.tick all later
    · exact ih (t := t.writeAt 0xFF06 v) waiting.writeModulo all later

/-- A write elsewhere than to the counter, with no reload just landed. -/
theorem writeAt_of_ne {a : UInt16} {v : UInt8} (other : a ≠ 0xFF05) (writable : t.reloaded = false) :
    (t.writeAt a v).counter = t.counter ∧ (t.writeAt a v).countdown = t.countdown ∧
      (t.writeAt a v).reloaded = false ∧ (t.writeAt a v).interrupt = t.interrupt := by
  rw [writeAt_eq, if_neg other]
  split_ifs <;> simp [clearDivider, write, writable]

/-- The counter ran over `4 - left` ticks ago. The edges since then, at most two a tick, leave it
far from running over again. -/
structure Delayed (left : Nat) (t : Timer) : Prop where
  writable : t.reloaded = false
  countdown : t.countdown = left
  small : t.counter.toNat + 2 * left ≤ 8

/-- A tick counts the edge that is owed and its own, and no more. -/
theorem edges_le : t.edges ≤ 2 := by
  rw [edges]
  cases t.owed <;> cases t.signal && !t.tick.watched <;> decide

/-- A tick of the delay counts down, and its edges fit. -/
theorem Delayed.tick {left : Nat} (delayed : Delayed (left + 2) t) : Delayed (left + 1) t.tick := by
  have few := t.edges_le
  have small := delayed.small
  have early : t.countdown ≠ 1 := by rw [delayed.countdown]; omega
  have room : ¬256 ≤ t.counter.toNat + t.edges := by omega
  refine ⟨(tick_of_early early).1, ?_, ?_⟩
  · rw [tick_countdown, if_neg early, if_neg room, delayed.countdown]
    rfl
  · rw [tick_counter_toNat, if_neg early, Nat.mod_eq_of_lt (Nat.not_le.mp room)]
    omega

/-- Operations between the ticks of the delay leave it, but for a write to the counter. -/
theorem Delayed.apply {left : Nat} {op : Operation} (delayed : Delayed left t) (other : op ≠ .tick)
    (mild : ∀ v, op ≠ .write 0xFF05 v) : Delayed left (t.apply op) := by
  cases op with
  | tick => exact absurd rfl other
  | takeInterrupt => exact { delayed with }
  | write a v =>
    have elsewhere : a ≠ 0xFF05 := fun same => mild v (same ▸ rfl)
    obtain ⟨counter, countdown, writable, -⟩ := writeAt_of_ne (v := v) elsewhere delayed.writable
    exact ⟨writable, countdown.trans delayed.countdown, counter ▸ delayed.small⟩

theorem apply_of_reloaded {op : Operation} (other : op ≠ .tick) (reloaded : t.reloaded = true) :
    (t.apply op).reloaded = true ∧ (t.apply op).countdown = t.countdown := by
  cases op with
  | tick => exact absurd rfl other
  | takeInterrupt => exact ⟨reloaded, rfl⟩
  | write a v =>
    rw [apply, writeAt_eq]
    split_ifs <;> simp [clearDivider, write, reloaded]

theorem run_of_reloaded {ops : List Operation} (silent : ticks ops = 0)
    (reloaded : t.reloaded = true) :
    (t.run ops).reloaded = true ∧ (t.run ops).countdown = t.countdown := by
  induction ops generalizing t with
  | nil => exact ⟨reloaded, rfl⟩
  | cons op rest ih =>
    have other : op ≠ .tick := by
      rintro rfl
      cases silent
    obtain ⟨still, same⟩ := apply_of_reloaded other reloaded
    obtain ⟨last, kept⟩ := ih (t := t.apply op) (ticks_of_ne other rest ▸ silent) still
    exact ⟨last, kept.trans same⟩

/-- The reload lands on the last tick of the delay, and then not again on the next. -/
theorem Delayed.reloads {left : Nat} {ops : List Operation} (delayed : Delayed (left + 1) t)
    (all : ticks ops = left + 1) (mild : ∀ op ∈ ops, ∀ v, op ≠ .write 0xFF05 v) :
    (t.run ops).reloaded = true ∧ (t.run ops).countdown ≠ 1 := by
  induction ops generalizing t left with
  | nil => cases all
  | cons op rest ih =>
    have later := fun next member => mild next (List.mem_cons_of_mem _ member)
    by_cases isTick : op = .tick
    · subst isTick
      rw [ticks, Nat.add_right_cancel_iff] at all
      cases left with
      | zero =>
        obtain ⟨reloaded, same⟩ := run_of_reloaded (t := t.tick) all
          (t.tick_reloaded.mpr delayed.countdown)
        refine ⟨reloaded, ?_⟩
        rw [run, List.foldl_cons, ← run, Timer.apply, same, tick_countdown, delayed.countdown]
        split_ifs <;> omega
      | succ left => exact ih (t := t.tick) delayed.tick all later
    · exact ih (t := t.apply op) (delayed.apply isTick (mild op List.mem_cons_self))
        (ticks_of_ne isTick rest ▸ all) later

/-- While it has room the counter takes every edge and nothing else happens. -/
theorem run_counted {ops : List Operation} (idle : t.countdown = 0) (writable : t.reloaded = false)
    (mild : ∀ op ∈ ops, op ≠ .takeInterrupt ∧ ∀ v, op ≠ .write 0xFF05 v)
    (room : t.counter.toNat + t.counted ops < 256) :
    (t.run ops).counter.toNat = t.counter.toNat + t.counted ops ∧
      (t.run ops).interrupt = t.interrupt := by
  induction ops generalizing t with
  | nil => exact ⟨rfl, rfl⟩
  | cons op rest ih =>
    have later := fun next member => mild next (List.mem_cons_of_mem _ member)
    obtain ⟨taken, elsewhere⟩ := mild op List.mem_cons_self
    have early : t.countdown ≠ 1 := by omega
    cases op with
    | takeInterrupt => exact absurd rfl taken
    | tick =>
      rw [counted] at room ⊢
      have fits : t.counter.toNat + t.edges < 256 := by omega
      have counter : t.tick.counter.toNat = t.counter.toNat + t.edges := by
        rw [tick_counter_toNat, if_neg early, Nat.mod_eq_of_lt fits]
      have countdown : t.tick.countdown = 0 := by
        rw [tick_countdown, if_neg early, if_neg (Nat.not_le.mpr fits), idle]
      obtain ⟨ready, interrupt⟩ := tick_of_early early
      obtain ⟨sum, same⟩ := ih countdown ready later (by omega)
      exact ⟨by rw [← Nat.add_assoc, ← counter]; exact sum, same.trans interrupt⟩
    | write a v =>
      obtain ⟨counter, countdown, ready, interrupt⟩ :=
        writeAt_of_ne (v := v) (fun same => elsewhere v (same ▸ rfl)) writable
      obtain ⟨sum, same⟩ := ih (t := t.writeAt a v) (countdown.trans idle) ready later
        (by rwa [counter])
      exact ⟨by rw [← counter]; exact sum, same.trans interrupt⟩

/-- After a tick that takes the counter over no edge can come within the delay: the signal has been
low at this tick or at the one before. -/
theorem Spaced.waiting {origin : Option Revision} {ops : List Operation} (spaced : Spaced ops)
    (early : ((fresh origin).run ops).countdown ≠ 1)
    (ran : ((fresh origin).run ops).tick.counter < ((fresh origin).run ops).counter) :
    Waiting 4 ((fresh origin).run ops).interrupt ((fresh origin).run ops).tick := by
  have known := (run_follows origin ops).1
  have low (owed : ((fresh origin).run ops).owed = true) :
      ((fresh origin).run ops).watched = false := spaced.low owed
  generalize (fresh origin).run ops = t at *
  -- An edge that is owed leaves the signal low, so the tick makes none of its own.
  have single : t.edges = 1 ∧ (t.watched = false ∨ t.tick.watched = false) := by
    have edge : t.edges ≠ 0 := by
      intro still
      rw [UInt8.lt_iff_toNat_lt, tick_counter_toNat, if_neg early, still, Nat.add_zero,
        Nat.mod_eq_of_lt t.counter.toNat_lt] at ran
      exact Nat.lt_irrefl _ ran
    rw [edges, known] at edge ⊢
    cases owed : t.owed with
    | true => simp [low owed]
    | false =>
      rw [owed] at edge
      cases fell : t.watched && !t.tick.watched with
      | false => simp [fell] at edge
      | true =>
        rw [Bool.and_eq_true, Bool.not_eq_true'] at fell
        exact ⟨rfl, Or.inr fell.2⟩
  obtain ⟨one, down⟩ := single
  have full : t.counter.toNat = 255 := by
    have bound := t.counter.toNat_lt
    rw [UInt8.lt_iff_toNat_lt, tick_counter_toNat, if_neg early, one] at ran
    omega
  have countdown : t.tick.countdown = 4 := by
    rw [tick_countdown, if_neg early, full, one]
    rfl
  obtain ⟨writable, interrupt⟩ := tick_of_early early
  refine { known := t.tick_signal, paid := t.tick_owed, writable := writable, interrupt := interrupt,
           due := Or.inr countdown, steady := ?_, empty := ?_, countdown := countdown }
  · intro k soon up
    -- From a low signal on, a rise is not over within the delay.
    rcases down with before | now
    · rw [tick_divider, tick_control, UInt16.add_assoc, UInt16.add_comm 1, ← UInt16.ofNat_one,
        ← UInt16.ofNat_add] at up ⊢
      exact level_add_succ before (by omega) up
    · exact level_add_succ now (by omega) up
  · rw [← UInt8.toNat_inj, tick_counter_toNat, if_neg early, full, one]
    rfl

/-- The life of an overflow, for writes that are kept apart by ticks. For three ticks after the one
that takes the counter over it reads zero, and on the fourth it takes the modulo and the interrupt
is raised, whatever is written to the modulo meanwhile. A write to the counter within the delay
calls this off, and the counter goes on from the byte written. Until the next tick the reloaded
counter ignores a write and follows the modulo; after it both are written as ever. -/
theorem overflow_protocol (origin : Option Revision) (ops : List Operation) (spaced : Spaced ops)
    (early : ((fresh origin).run ops).tick.reloaded = false)
    (ran : ((fresh origin).run ops).tick.counter < ((fresh origin).run ops).counter) :
    let t := (fresh origin).run ops
    (∀ window, (∀ op ∈ window, op = .tick ∨ ∃ v, op = .write 0xFF06 v) →
      (ticks window ≤ 3 → (t.tick.run window).readAt 0xFF05 = 0 ∧
        (t.tick.run window).interrupt = t.interrupt) ∧
      (ticks window = 4 →
        (t.tick.run window).readAt 0xFF05 = (t.tick.run window).modulo ∧
        (t.tick.run window).interrupt = true)) ∧
    (∀ window v later, (∀ op ∈ window, op = .tick ∨ (∃ v, op = .write 0xFF05 v) ∨
        ∃ v, op = .write 0xFF06 v) → ticks window ≤ 3 →
      let u := (t.tick.run window).writeAt 0xFF05 v
      u.readAt 0xFF05 = v ∧ u.overflowed = false ∧ u.interrupt = t.interrupt ∧
      ((∀ op ∈ later, op ≠ .takeInterrupt ∧ ∀ v, op ≠ .write 0xFF05 v) →
        v.toNat + u.counted later < 256 →
        ((u.run later).readAt 0xFF05).toNat = v.toNat + u.counted later ∧
          (u.run later).interrupt = t.interrupt)) ∧
    ∀ window, (∀ op ∈ window, ∀ v, op ≠ .write 0xFF05 v) → ticks window = 4 →
      let u := t.tick.run window
      (∀ v, u.writeAt 0xFF05 v = u ∧ u.writeAt 0xFF06 v = { u with modulo := v, counter := v }) ∧
      ∀ gap, ticks gap = 0 → ∀ v,
        (u.run gap).tick.writeAt 0xFF05 v = { (u.run gap).tick with counter := v, countdown := 0 } ∧
        (u.run gap).tick.writeAt 0xFF06 v = { (u.run gap).tick with modulo := v } := by
  intro t
  have waiting : Waiting 4 t.interrupt t.tick :=
    spaced.waiting (by rwa [← Bool.not_eq_true, tick_reloaded] at early) ran
  refine ⟨fun window mild => ⟨fun few => ?_, fun all => ?_⟩, fun window v later mild few => ?_,
    fun window mild all => ?_⟩
  · obtain ⟨left, sum⟩ := Nat.exists_eq_add_of_le few
    have still : Waiting (left + 1) t.interrupt (t.tick.run window) :=
      Waiting.run (by rwa [← sum]) mild
    exact ⟨still.empty, still.interrupt⟩
  · have landed := waiting.lands_run all mild
    exact ⟨landed.counter, landed.interrupt⟩
  · obtain ⟨left, sum⟩ := Nat.exists_eq_add_of_le few
    have calm : Calm (left + 1) t.interrupt (t.tick.run window) :=
      Calm.run (by rw [← sum]; exact waiting.toCalm) mild
    intro u
    obtain ⟨counter, idle, writable, interrupt⟩ := calm.cancelled v
    refine ⟨counter, by rw [overflowed, idle]; rfl, interrupt, fun quiet room => ?_⟩
    obtain ⟨sum, same⟩ := run_counted idle writable quiet (by rwa [counter])
    exact ⟨by rw [← counter]; exact sum, same.trans interrupt⟩
  · -- Other registers may be written here too, so edges may come, and the delay has room for them.
    have delayed : Delayed 4 t.tick :=
      ⟨waiting.writable, waiting.countdown, by rw [waiting.empty]; decide⟩
    obtain ⟨reloaded, idle⟩ := delayed.reloads all mild
    refine ⟨fun v => ⟨writeCounter_of_reloaded reloaded v, writeModulo_of_reloaded reloaded v⟩,
      fun gap silent v => ?_⟩
    obtain ⟨-, same⟩ := run_of_reloaded silent reloaded
    have writable := (tick_of_early (t := (t.tick.run window).run gap) (same ▸ idle)).1
    exact ⟨writeCounter writable, writeModulo_of_writable writable v⟩

/-- The first edge after the start takes a full counter over, and the modulo is written during the
delay. -/
theorem overflow_protocol_at_boot :
    let ops : List Operation := [.write 0xFF05 0xFF, .write 0xFF07 5, .tick, .tick, .tick]
    let t := (fresh (some .standard)).run ops
    Spaced ops ∧ t.tick.reloaded = false ∧ t.tick.counter < t.counter ∧
      (t.tick.run [.tick, .write 0xFF06 0x42, .tick, .tick, .tick]).readAt 0xFF05 = 0x42 := by
  intro ops t
  have spaced : Spaced ops := by
    intro before first between second after same moves again
    have one : ops.countP Operation.movesSignal = 1 := rfl
    rw [same, List.countP_append, List.countP_cons_of_pos moves, List.countP_append,
      List.countP_cons_of_pos again] at one
    omega
  have early : t.tick.reloaded = false := by decide
  have ran : t.tick.counter < t.counter := by decide
  have mild : ∀ op ∈ [Operation.tick, .write 0xFF06 0x42, .tick, .tick, .tick],
      op = .tick ∨ ∃ v, op = .write 0xFF06 v := by simp
  obtain ⟨taken, -⟩ := ((overflow_protocol (some .standard) ops spaced early ran).1 _ mild).2 rfl
  have written : (t.tick.run [.tick, .write 0xFF06 0x42, .tick, .tick, .tick]).modulo = 0x42 := by
    decide
  exact ⟨spaced, early, ran, taken.trans written⟩

end DotMatrix.Timer
