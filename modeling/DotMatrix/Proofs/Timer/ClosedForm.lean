import DotMatrix.Proofs.Timer.Overflow

namespace DotMatrix.Timer

variable (t : Timer)

/-- Ticks from one falling edge of the watched bit to the next. -/
def period : Nat := 2 ^ (watchedBit t.control + 1)

/-- How often the watched bit falls within `n` ticks. -/
def falls (n : Nat) : Nat :=
  (t.divider.toNat + n) / t.period - t.divider.toNat / t.period

/-- The tick with which it falls for the `j`-th time. -/
def fallAt (j : Nat) : Nat :=
  (t.divider.toNat / t.period + j) * t.period - t.divider.toNat

/-- Ticks since the divider was last a multiple of the period, `n` ticks from now. -/
def since (n : Nat) : Nat := (t.divider.toNat + n) % t.period

/-- Edges until the counter runs over. -/
def room : Nat := 256 - t.counter.toNat

/-- Edges from one overflow to the next. -/
def cycle : Nat := 256 - t.modulo.toNat

/-- Nothing is left over from earlier writes or overflows. -/
structure Settled : Prop where
  known : t.signal = t.watched
  paid : t.owed = false
  idle : t.countdown = 0
  quiet : t.interrupt = false

theorem period_cases : t.period = 16 ∨ t.period = 64 ∨ t.period = 256 ∨ t.period = 1024 := by
  rw [period]
  rcases watchedBit_cases t.control with bit | bit | bit | bit <;> simp [bit]

theorem room_pos : 0 < t.room := Nat.sub_pos_of_lt t.counter.toNat_lt

theorem cycle_pos : 0 < t.cycle := Nat.sub_pos_of_lt t.modulo.toNat_lt

theorem falls_zero : t.falls 0 = 0 := Nat.sub_self _

/-- The watched bit falls when the divider comes to a multiple of the period. -/
theorem falls_succ (n : Nat) :
    t.since n + 1 = t.period ∧ t.falls (n + 1) = t.falls n + 1 ∧ t.since (n + 1) = 0 ∨
      t.since n + 1 < t.period ∧ t.falls (n + 1) = t.falls n ∧
        t.since (n + 1) = t.since n + 1 := by
  unfold falls since
  rcases t.period_cases with p | p | p | p
  all_goals
    rw [p]
    omega

/-- The bit has fallen for the `j`-th time once its tick has come. -/
theorem fallAt_le_iff {j : Nat} (positive : 0 < j) (n : Nat) : t.fallAt j ≤ n ↔ j ≤ t.falls n := by
  unfold falls fallAt
  rcases t.period_cases with p | p | p | p
  all_goals
    rw [p]
    omega

/-- The last fall lies as many ticks back as have passed since the divider was a multiple. -/
theorem fallAt_falls {n : Nat} (positive : 0 < t.falls n) : t.fallAt (t.falls n) + t.since n = n := by
  unfold falls fallAt since at *
  rcases t.period_cases with p | p | p | p
  all_goals
    rw [p] at positive ⊢
    omega

theorem fallAt_add_period {j k : Nat} (positive : 0 < j) (earlier : j < k) :
    t.fallAt j + 16 ≤ t.fallAt k := by
  unfold fallAt
  rcases t.period_cases with p | p | p | p
  all_goals
    rw [p]
    omega

/-- The signal falls with the next tick if counting is enabled and the divider comes to a multiple
of the period. -/
theorem level_falls_iff (divider : UInt16) (control : UInt8) :
    level divider control = true ∧ level (divider + 1) control = false ↔
      control.toNat.testBit 2 = true ∧
        (divider.toNat + 1) % 2 ^ (watchedBit control + 1) = 0 := by
  rw [← Bool.not_eq_true, level_iff, level_iff, UInt16.toNat_add]
  have bound := divider.toNat_lt
  have one : (1 : UInt16).toNat = 1 := rfl
  rcases watchedBit_cases control with bit | bit | bit | bit
  all_goals
    rw [bit, one]
    cases control.toNat.testBit 2 <;> simp
    omega

theorem step_succ (n : Nat) : step (n + 1) t = (step n t).tick := by
  rw [step_add]
  rfl

theorem step_control (n : Nat) : (step n t).control = t.control := by
  induction n with
  | zero => rfl
  | succ n ih => rw [step_succ, tick_control, ih]

theorem step_divider_toNat (n : Nat) :
    (step n t).divider.toNat = (t.divider.toNat + n) % 65536 := by
  induction n with
  | zero => exact (Nat.mod_eq_of_lt t.divider.toNat_lt).symm
  | succ n ih =>
    have one : (1 : UInt16).toNat = 1 := rfl
    rw [step_succ, tick_divider, UInt16.toNat_add, ih, one]
    omega

/-- Since the period divides the range of the divider, its wrap moves no edge. -/
theorem step_falls_iff (n : Nat) :
    (step n t).watched = true ∧ (step (n + 1) t).watched = false ↔
      t.control.toNat.testBit 2 = true ∧ t.since n + 1 = t.period := by
  rw [step_succ, tick_watched, watched, level_falls_iff, step_control, step_divider_toNat, since]
  change _ ∧ _ % t.period = 0 ↔ _
  refine and_congr_right fun _ => ?_
  rcases t.period_cases with p | p | p | p
  all_goals
    rw [p]
    omega

/-- What has come of `start` when `e` edges have been counted, the last of them `s` ticks ago. -/
structure Counting (start : Timer) (e s : Nat) (t : Timer) : Prop where
  paid : t.owed = false
  modulo : t.modulo = start.modulo
  fits : e < start.room →
    t.counter.toNat = start.counter.toNat + e ∧ t.countdown = 0 ∧ t.interrupt = false
  raised : start.room ≤ e → (t.interrupt = true ↔ start.room < e ∨ 4 ≤ s)
  waiting : start.room ≤ e → start.cycle ∣ e - start.room → s < 4 →
    t.counter = 0 ∧ t.countdown = 4 - s
  counting : start.room ≤ e → ¬(start.cycle ∣ e - start.room ∧ s < 4) →
    t.counter.toNat = start.modulo.toNat + (e - start.room) % start.cycle ∧ t.countdown = 0

variable {t} {start : Timer} {e s : Nat}

theorem tick_interrupt_iff :
    t.tick.interrupt = true ↔ t.interrupt = true ∨ t.countdown = 1 := by
  rw [tick_interrupt, Bool.or_eq_true, decide_eq_true_iff]

/-- A tick that counts no edge. -/
theorem tick_of_no_edge (still : t.edges = 0) :
    t.tick.counter = (if t.countdown = 1 then t.modulo else t.counter) ∧
      t.tick.countdown = t.countdown - 1 := by
  constructor
  · rw [← UInt8.toNat_inj, tick_counter_toNat, still, Nat.add_zero,
      Nat.mod_eq_of_lt (UInt8.toNat_lt _)]
  · have fits : ¬256 ≤ (if t.countdown = 1 then t.modulo else t.counter).toNat + 0 :=
      Nat.not_le.mpr (UInt8.toNat_lt _)
    rw [tick_countdown, still, if_neg fits]

/-- A tick without an edge only moves the countdown. -/
theorem Counting.pass (c : Counting start e s t) (still : t.edges = 0) :
    Counting start e (s + 1) t.tick := by
  obtain ⟨counter, countdown⟩ := tick_of_no_edge still
  refine ⟨t.tick_owed, t.tick_modulo.trans c.modulo, fun few => ?_, fun many => ?_,
    fun many multiple soon => ?_, fun many late => ?_⟩
  · obtain ⟨sum, idle, quiet⟩ := c.fits few
    rw [counter, countdown, tick_interrupt, idle, quiet]
    exact ⟨sum, rfl, rfl⟩
  · rw [tick_interrupt_iff, c.raised many]
    by_cases early : start.cycle ∣ e - start.room ∧ s < 4
    · rw [(c.waiting many early.1 early.2).2]
      omega
    · rw [(c.counting many early).2]
      have beyond : start.room < e ∨ 4 ≤ s := by
        by_contra neither
        have last : e - start.room = 0 := by omega
        exact early ⟨last ▸ Nat.dvd_zero _, by omega⟩
      omega
  · obtain ⟨empty, left⟩ := c.waiting many multiple (by omega)
    rw [counter, countdown, left, if_neg (by omega)]
    exact ⟨empty, by omega⟩
  · -- The delay may end with this tick, and then the counter takes the modulo.
    by_cases early : start.cycle ∣ e - start.room ∧ s < 4
    · have last : s = 3 := by
        by_contra more
        exact late ⟨early.1, by omega⟩
      obtain ⟨empty, left⟩ := c.waiting many early.1 early.2
      have due : t.countdown = 1 := by rw [left, last]
      rw [counter, countdown, if_pos due, due, c.modulo, Nat.mod_eq_zero_of_dvd early.1]
      exact ⟨rfl, rfl⟩
    · obtain ⟨sum, idle⟩ := c.counting many early
      rw [counter, countdown, idle, if_neg (by decide)]
      exact ⟨sum, rfl⟩

/-- A tick that counts an edge while no reload is waiting. -/
theorem tick_of_edge (one : t.edges = 1) (idle : t.countdown = 0) :
    t.tick.counter.toNat = (t.counter.toNat + 1) % 256 ∧
      t.tick.countdown = if t.counter.toNat = 255 then 4 else 0 := by
  have bound := t.counter.toNat_lt
  have full : 256 ≤ t.counter.toNat + 1 ↔ t.counter.toNat = 255 := by omega
  rw [tick_counter_toNat, tick_countdown, one, idle, if_neg (by decide)]
  exact ⟨rfl, if_congr full rfl rfl⟩

/-- Four ticks after an edge no reload is waiting. -/
theorem Counting.idle (c : Counting start e s t) (far : start.room ≤ e → 4 ≤ s) :
    t.countdown = 0 ∧ (t.interrupt = true ↔ start.room ≤ e) := by
  by_cases few : e < start.room
  · obtain ⟨-, idle, quiet⟩ := c.fits few
    simp [idle, quiet, few]
  · have many : start.room ≤ e := Nat.not_lt.mp few
    have long := far many
    have late : ¬(start.cycle ∣ e - start.room ∧ s < 4) := fun early => by omega
    exact ⟨(c.counting many late).2, (c.raised many).trans (by omega)⟩

/-- Where the next edge stands among those from one overflow to the next. -/
theorem cycle_succ (many : start.room ≤ e) : (e + 1 - start.room) % start.cycle =
    if (e - start.room) % start.cycle + 1 = start.cycle then 0
    else (e - start.room) % start.cycle + 1 := by
  have below := Nat.mod_lt (e - start.room) start.cycle_pos
  rw [Nat.sub_add_comm many, ← Nat.mod_add_mod]
  split_ifs with last
  · rw [last, Nat.mod_self]
  · exact Nat.mod_eq_of_lt (by omega)

/-- A tick with an edge counts it, or runs over. The countdown of the last overflow is done by then,
for edges are far apart. -/
theorem Counting.count (c : Counting start e s t) (one : t.edges = 1)
    (far : start.room ≤ e → 4 ≤ s) : Counting start (e + 1) 0 t.tick := by
  obtain ⟨idle, raised⟩ := c.idle far
  obtain ⟨counter, countdown⟩ := tick_of_edge one idle
  have bound := start.counter.toNat_lt
  have modulo := start.modulo.toNat_lt
  have roomEq : start.room = 256 - start.counter.toNat := rfl
  have cycleEq : start.cycle = 256 - start.modulo.toNat := rfl
  have interrupt : t.tick.interrupt = true ↔ start.room ≤ e := by
    rw [tick_interrupt_iff, raised, idle]
    omega
  have counted (many : start.room ≤ e) :
      t.counter.toNat = start.modulo.toNat + (e - start.room) % start.cycle := by
    have long := far many
    exact (c.counting many fun early => by omega).1
  refine ⟨t.tick_owed, t.tick_modulo.trans c.modulo, fun few => ?_, fun many => ?_,
    fun many multiple _ => ?_, fun many late => ?_⟩
  · obtain ⟨sum, -, -⟩ := c.fits (by omega)
    have quiet : t.tick.interrupt = false := by
      rw [← Bool.not_eq_true, interrupt]
      omega
    rw [counter, countdown, if_neg (by omega), sum]
    exact ⟨by omega, rfl, quiet⟩
  · rw [interrupt]
    omega
  · -- The edge that takes the counter over is one at a multiple of the cycle.
    have full : t.counter.toNat = 255 := by
      by_cases first : e < start.room
      · have sum := (c.fits first).1
        omega
      · have again : start.room ≤ e := Nat.not_lt.mp first
        have sum := counted again
        have last := cycle_succ again
        have zero := Nat.mod_eq_zero_of_dvd multiple
        split_ifs at last with wraps <;> omega
    rw [countdown, if_pos full, ← UInt8.toNat_inj, counter, full]
    exact ⟨rfl, rfl⟩
  · have again : start.room ≤ e := by
      by_contra first
      have zero : e + 1 - start.room = 0 := by omega
      exact late ⟨zero ▸ Nat.dvd_zero _, by decide⟩
    have last := cycle_succ again
    have below := Nat.mod_lt (e - start.room) start.cycle_pos
    have more : (e - start.room) % start.cycle + 1 ≠ start.cycle := by
      intro wraps
      rw [if_pos wraps] at last
      exact late ⟨Nat.dvd_of_mod_eq_zero last, by decide⟩
    rw [if_neg more] at last
    rw [counter, countdown, counted again, last, if_neg (by omega)]
    exact ⟨by omega, rfl⟩

theorem Settled.counting_zero (settled : t.Settled) (s : Nat) : Counting t 0 s t where
  paid := settled.paid
  modulo := rfl
  fits _ := ⟨rfl, settled.idle, settled.quiet⟩
  raised many := absurd t.room_pos (Nat.not_lt.mpr many)
  waiting many := absurd t.room_pos (Nat.not_lt.mpr many)
  counting many := absurd t.room_pos (Nat.not_lt.mpr many)

theorem Settled.step_known (settled : t.Settled) (n : Nat) :
    (step n t).signal = (step n t).watched := by
  cases n with
  | zero => exact settled.known
  | succ n =>
    rw [step_succ]
    exact tick_signal _

/-- A settled timer counts an edge exactly when the watched bit falls. -/
theorem Settled.step_edges (settled : t.Settled) {n : Nat} (paid : (step n t).owed = false) :
    (step n t).edges =
      if t.control.toNat.testBit 2 = true ∧ t.since n + 1 = t.period then 1 else 0 := by
  have falls := t.step_falls_iff n
  rw [step_succ] at falls
  rw [edges, paid, settled.step_known, ← if_congr falls rfl rfl]
  cases (step n t).watched <;> cases (step n t).tick.watched <;> rfl

/-- By induction on the ticks, an enabled timer counts the falls of its bit. -/
theorem Settled.counting (settled : t.Settled) (enabled : t.control.toNat.testBit 2 = true)
    (n : Nat) : Counting t (t.falls n) (t.since n) (step n t) := by
  induction n with
  | zero =>
    rw [falls_zero]
    exact settled.counting_zero _
  | succ n ih =>
    have edges := settled.step_edges ih.paid
    rw [step_succ]
    rcases t.falls_succ n with ⟨last, falls, since⟩ | ⟨more, falls, since⟩
    · rw [if_pos ⟨enabled, last⟩] at edges
      have far : 4 ≤ t.since n := by
        rcases t.period_cases with p | p | p | p <;> omega
      rw [falls, since]
      exact ih.count edges fun _ => far
    · rw [if_neg fun both => more.ne both.2] at edges
      rw [falls, since]
      exact ih.pass edges

/-- A disabled timer counts nothing. -/
theorem Settled.counting_of_disabled (settled : t.Settled)
    (disabled : t.control.toNat.testBit 2 = false) (n : Nat) : Counting t 0 n (step n t) := by
  induction n with
  | zero => exact settled.counting_zero 0
  | succ n ih =>
    have edges := settled.step_edges ih.paid
    rw [disabled, if_neg fun both => Bool.false_ne_true both.1] at edges
    rw [step_succ]
    exact ih.pass edges

/-- What `n` ticks do to a settled timer. The signal falls with the ticks `fallAt 1`, `fallAt 2`
and so on, and `falls n` of them are among the first `n`. A disabled counter stays. An enabled one
takes every edge while it has room for them. Once it has run over it goes through the bytes from the
modulo on, one an edge, and reads zero for less than four ticks after each edge that takes it over;
the interrupt is there from the fourth tick after the first such edge. -/
theorem step_closed_form (n : Nat) (settled : t.Settled) :
    (step n t).divider.toNat = (t.divider.toNat + n) % 65536 ∧
    (∀ k, (step k t).watched = true ∧ (step (k + 1) t).watched = false ↔
      t.control.toNat.testBit 2 = true ∧ ∃ j > 0, t.fallAt j = k + 1) ∧
    (∀ j > 0, t.fallAt j ≤ n ↔ j ≤ t.falls n) ∧
    (t.control.toNat.testBit 2 = false →
      (step n t).counter = t.counter ∧ (step n t).interrupt = false) ∧
    (t.control.toNat.testBit 2 = true →
      (t.falls n < t.room →
        (step n t).counter.toNat = t.counter.toNat + t.falls n ∧ (step n t).interrupt = false) ∧
      (t.room ≤ t.falls n →
        ((step n t).interrupt = true ↔ t.fallAt t.room + 4 ≤ n) ∧
        (step n t).counter.toNat =
          if t.cycle ∣ t.falls n - t.room ∧ n < t.fallAt (t.falls n) + 4 then 0
          else t.modulo.toNat + (t.falls n - t.room) % t.cycle)) := by
  refine ⟨t.step_divider_toNat n, fun k => ?_, fun j positive => t.fallAt_le_iff positive n,
    fun disabled => ?_, fun enabled => ⟨fun few => ?_, fun many => ?_⟩⟩
  · rw [step_falls_iff]
    refine and_congr_right fun _ => ⟨fun last => ?_, fun ⟨j, first, now⟩ => ?_⟩
    · obtain ⟨-, falls, since⟩ | ⟨more, -⟩ := t.falls_succ k
      · refine ⟨t.falls k + 1, Nat.succ_pos _, ?_⟩
        have time := t.fallAt_falls (n := k + 1) (falls ▸ Nat.succ_pos _)
        rwa [falls, since, Nat.add_zero] at time
      · exact absurd last more.ne
    · have reached := (t.fallAt_le_iff first (k + 1)).mp now.le
      have before := mt (t.fallAt_le_iff first k).mpr (by omega)
      obtain ⟨last, -⟩ | ⟨-, same, -⟩ := t.falls_succ k
      · exact last
      · omega
  · have counting := settled.counting_of_disabled disabled n
    obtain ⟨counter, -, quiet⟩ := counting.fits t.room_pos
    exact ⟨UInt8.toNat_inj.mp counter, quiet⟩
  · obtain ⟨counter, -, quiet⟩ := (settled.counting enabled n).fits few
    exact ⟨counter, quiet⟩
  · have counting := settled.counting enabled n
    have positive := t.room_pos
    have time := t.fallAt_falls (n := n) (positive.trans_le many)
    refine ⟨(counting.raised many).trans ?_, ?_⟩
    · obtain same | more := many.eq_or_lt
      · rw [same]
        omega
      · have earlier := t.fallAt_add_period positive more
        omega
    · split_ifs with early
      · rw [(counting.waiting many early.1 (by omega)).1]
        rfl
      · exact (counting.counting many fun both => early ⟨both.1, by omega⟩).1

/-- With the greatest modulo every further edge takes the counter over. -/
theorem step_closed_form_full_modulo :
    let t : Timer := { stopped with counter := 0xFE, modulo := 0xFF, control := 5 }
    t.Settled ∧ (step 99 t).counter.toNat = 0 ∧ (step 99 t).interrupt = true := by
  intro t
  have settled : t.Settled := ⟨by decide, rfl, rfl, rfl⟩
  obtain ⟨-, -, -, -, enabled⟩ := step_closed_form 99 settled
  obtain ⟨interrupt, counter⟩ := (enabled (by decide)).2 (by decide)
  have early : t.cycle ∣ t.falls 99 - t.room ∧ 99 < t.fallAt (t.falls 99) + 4 := by decide
  rw [if_pos early] at counter
  exact ⟨settled, counter, interrupt.mpr (by decide)⟩

end DotMatrix.Timer
