import DotMatrix.Proofs.Bus.Footprint
import DotMatrix.Serial
import Mathlib.Data.List.DropRight

namespace DotMatrix

namespace Bus

/-- Whether the program has a byte sent, on the clock of this side. -/
def transferring (s : Bus) : Bool := s.read 0xFF02 &&& 0x81 == 0x81

/-- The bus when a byte has gone out and a byte of ones has come in. -/
def exchanged (s : Bus) : Bus :=
  ((s.store .sb 0xFF).store .sc (s.read 0xFF02 &&& 0x7F)).request .serial

theorem read_sb (s : Bus) : s.read 0xFF01 = s.registers.visible .sb := read_register (by decide) s

theorem read_sc (s : Bus) : s.read 0xFF02 = s.registers.visible .sc := read_register (by decide) s

theorem exchanged_data (s : Bus) : s.exchanged.read 0xFF01 = 0xFF := by
  rw [exchanged, read_request (by decide), read_store_of_ne (by decide),
    read_store_self (by decide)]
  rfl

theorem exchanged_control (s : Bus) : s.exchanged.read 0xFF02 = s.read 0xFF02 &&& 0x7F := by
  have seen : s.read 0xFF02 &&& 0x7F ||| Register.sc.openBits = s.read 0xFF02 &&& 0x7F := by
    rw [read_sc, Registers.visible, or_and_distrib, UInt8.or_assoc]
    have closed : Register.sc.openBits &&& 0x7F ||| Register.sc.openBits =
        Register.sc.openBits &&& 0x7F := by decide
    rw [closed]
  rw [exchanged, read_request (by decide), read_store_self (by decide), seen]

theorem exchanged_requested (s : Bus) : s.exchanged.requested = s.requested.union .serial := rfl

theorem exchanged_elsewhere {a : UInt16} (data : a ≠ 0xFF01) (control : a ≠ 0xFF02)
    (requests : a ≠ 0xFF0F) (s : Bus) : s.exchanged.read a = s.read a := by
  have noData : Cell.ofAddress a ≠ .register .sb :=
    mt (Cell.ofAddress_eq_register (by decide)).mp data
  have noControl : Cell.ofAddress a ≠ .register .sc :=
    mt (Cell.ofAddress_eq_register (by decide)).mp control
  rw [exchanged, read_request requests, read_store_of_ne noControl, read_store_of_ne noData]

/-- A transfer that is over does not begin again by itself. -/
theorem exchanged_transferring (s : Bus) : s.exchanged.transferring = false := by
  have low : (0x7F : UInt8) &&& 0x81 = 0x01 := by decide
  have apart : (0x01 : UInt8) &&& 0x80 = 0 := by decide
  rw [transferring, exchanged_control, UInt8.and_assoc, low, beq_eq_false_iff_ne]
  intro same
  have top : s.read 0xFF02 &&& 0x01 &&& 0x80 = 0x81 &&& 0x80 := congrArg (· &&& 0x80) same
  rw [UInt8.and_assoc, apart, UInt8.and_zero] at top
  exact absurd top (by decide)

end Bus

namespace Serial

/-- Cycles until the byte on its way is out, or the next one if none is. -/
def remaining (s : Serial) : Nat := s.left.getD byteCycles

@[simp] theorem remaining_some (sent : Array UInt8) (n : Nat) :
    Serial.remaining ⟨sent, some n⟩ = n := rfl

@[simp] theorem remaining_none (sent : Array UInt8) :
    Serial.remaining ⟨sent, none⟩ = byteCycles := rfl

theorem byteCycles_pos : 0 < byteCycles := Nat.succ_pos _

variable {s : Serial} {bus : Bus} {n : Nat}

theorem step_of_idle (idle : bus.transferring = false) :
    s.step n bus = ({ s with left := none }, bus) := by
  rw [Bus.transferring, Bus.read_sc, beq_eq_false_iff_ne] at idle
  exact if_neg idle

theorem step_of_lt (busy : bus.transferring = true) (early : n < s.remaining) :
    s.step n bus = ({ s with left := some (s.remaining - n) }, bus) := by
  rw [Bus.transferring, Bus.read_sc, beq_iff_eq] at busy
  exact (if_pos busy).trans (if_pos early)

/-- A transfer that is due sends its byte and is over. -/
theorem step_of_le (busy : bus.transferring = true) (due : s.remaining ≤ n) :
    s.step n bus = ({ sent := s.sent.push (bus.read 0xFF01), left := none }, bus.exchanged) := by
  rw [Bus.transferring, Bus.read_sc, beq_iff_eq] at busy
  rw [Bus.read_sb, Bus.exchanged, Bus.read_sc]
  exact (if_pos busy).trans (if_neg (Nat.not_lt.mpr due))

/-- Whether a byte goes out within the next `n` cycles. -/
def finishes (n : Nat) (s : Serial) (bus : Bus) : Bool :=
  s.sent.size < (s.step n bus).1.sent.size

/-- A byte goes out when a transfer is running and its time is up. -/
theorem finishes_eq (n : Nat) (s : Serial) (bus : Bus) :
    s.finishes n bus = (bus.transferring && decide (s.remaining ≤ n)) := by
  rw [finishes]
  cases busy : bus.transferring with
  | false => simp [step_of_idle busy]
  | true =>
    by_cases due : s.remaining ≤ n
    · simp [step_of_le busy due, due]
    · simp [step_of_lt busy (Nat.lt_of_not_le due), due]

/-- A step sends a byte and leaves the unit as it was at first, or it only counts. -/
theorem step_eq (n : Nat) (s : Serial) (bus : Bus) : s.step n bus =
    if s.finishes n bus then
      ({ sent := s.sent.push (bus.read 0xFF01), left := none }, bus.exchanged)
    else ({ s with left := if bus.transferring then some (s.remaining - n) else none }, bus) := by
  rw [finishes_eq]
  cases busy : bus.transferring with
  | false => exact step_of_idle busy
  | true =>
    by_cases due : s.remaining ≤ n
    · simp [step_of_le busy due, due]
    · simp [step_of_lt busy (Nat.lt_of_not_le due), due]

/-- A step requests the interrupt exactly if a byte goes out. -/
theorem step_requested (n : Nat) (s : Serial) (bus : Bus) :
    (s.step n bus).2.requested =
      bus.requested.union (Interrupts.serial.when (s.finishes n bus)) := by
  rw [step_eq]
  cases s.finishes n bus with
  | true => rfl
  | false => exact (Interrupts.union_empty _).symm

/-- Two steps with nothing between them are one. -/
theorem step_add (a b : Nat) (s : Serial) (bus : Bus) :
    (s.step a bus).1.step b (s.step a bus).2 = s.step (a + b) bus := by
  cases busy : bus.transferring with
  | false => simp only [step_of_idle busy]
  | true =>
    by_cases first : s.remaining ≤ a
    · rw [step_of_le busy first, step_of_le busy (Nat.le_add_right_of_le first),
        step_of_idle bus.exchanged_transferring]
    · have early := Nat.lt_of_not_le first
      rw [step_of_lt busy early]
      by_cases second : s.remaining ≤ a + b
      · rw [step_of_le busy (by rw [remaining_some]; omega), step_of_le busy second]
      · rw [step_of_lt busy (by rw [remaining_some]; omega),
          step_of_lt busy (Nat.lt_of_not_le second), remaining_some, Nat.sub_sub]

/-- What can be seen of one step. -/
structure Turn where
  cycles : Nat
  /-- A transfer was running. -/
  active : Bool
  /-- The byte that went out, if one did. -/
  out : Option UInt8

/-- What is seen of a step. -/
def turn (n : Nat) (s : Serial) (bus : Bus) : Turn where
  cycles := n
  active := bus.transferring
  out := if s.finishes n bus then some (bus.read 0xFF01) else none

/-- The cycles of the steps since the last that was not active or sent a byte. -/
def stretch (turns : List Turn) : Nat :=
  ((turns.rtakeWhile fun t => t.active && t.out.isNone).map Turn.cycles).sum

/-- The stretch of a transfer begins again when a byte has gone out or none is to be sent. -/
theorem stretch_concat (turns : List Turn) (t : Turn) : stretch (turns ++ [t]) =
    if t.active && t.out.isNone then stretch turns + t.cycles else 0 := by
  rw [stretch, List.rtakeWhile_concat]
  split
  · rw [List.map_append, List.sum_append, List.map_singleton, List.sum_singleton, stretch]
  · rfl

/-- A unit since power-on, with the steps that it has made. Anything may be done to the bus between
them, such as writes to its two registers. -/
inductive Ran (start : Bus) : List Turn → Serial → Bus → Prop
  | start : Ran start [] .idle start
  | access {turns : List Turn} {s : Serial} {bus next : Bus} : Ran start turns s bus →
      bus.Access next → Ran start turns s next
  | step {turns : List Turn} {s : Serial} {bus : Bus} (n : Nat) : Ran start turns s bus →
      Ran start (turns ++ [turn n s bus]) (s.step n bus).1 (s.step n bus).2

variable {start : Bus} {turns : List Turn}

/-- What has passed of a byte time and what is left of it make up all of it. -/
theorem Ran.remaining (ran : Ran start turns s bus) :
    stretch turns + s.remaining = byteCycles ∧ 0 < s.remaining := by
  induction ran with
  | start => exact ⟨rfl, byteCycles_pos⟩
  | access _ _ ih => exact ih
  | @step turns s bus n _ ih =>
    have outcome := finishes_eq n s bus
    rw [stretch_concat, turn, step_eq]
    cases finished : s.finishes n bus with
    | true => simp [byteCycles_pos]
    | false =>
      cases busy : bus.transferring with
      | false => simp [byteCycles_pos]
      | true =>
        rw [finished, busy, Bool.true_and, eq_comm, decide_eq_false_iff_not] at outcome
        simp only [remaining_some, Bool.true_and, Bool.false_eq_true, if_false, Option.isNone_none,
          if_true]
        omega

/-- The bytes that have gone out are those of the steps that sent one, in their order. -/
theorem Ran.sent (ran : Ran start turns s bus) : s.sent.toList = turns.filterMap Turn.out := by
  induction ran with
  | start => rfl
  | access _ _ ih => exact ih
  | @step turns s bus n _ ih =>
    rw [List.filterMap_append, ← ih, turn, step_eq]
    cases s.finishes n bus <;> simp

/-- Over any run of the unit, a step sends a byte exactly if a transfer runs and the stretch of
steps in which it has run reaches a byte time. The byte is what the data register holds, which then
reads as ones. The control register loses bit 7, the interrupt is requested, and nothing else can be
seen to change. Any other step leaves the bus as it is. -/
theorem Ran.sends_at_byte_time (ran : Ran start turns s bus) (n : Nat) :
    let after := s.step n bus
    s.sent.toList = turns.filterMap Turn.out ∧ stretch turns < 4096 ∧
    (if bus.read 0xFF02 &&& 0x81 = 0x81 ∧ 4096 ≤ stretch turns + n then
      after.1.sent = s.sent.push (bus.read 0xFF01) ∧ after.2.read 0xFF01 = 0xFF ∧
      after.2.read 0xFF02 = bus.read 0xFF02 &&& 0x7F ∧
      after.2.requested = bus.requested.union .serial ∧
      ∀ a, a ≠ 0xFF01 → a ≠ 0xFF02 → a ≠ 0xFF0F → after.2.read a = bus.read a
    else after.1.sent = s.sent ∧ after.2 = bus) ∧
    ∀ a b, (s.step a bus).1.step b (s.step a bus).2 = s.step (a + b) bus := by
  intro after
  obtain ⟨whole, positive⟩ := ran.remaining
  have byteTime : byteCycles = 4096 := rfl
  have due : s.remaining ≤ n ↔ 4096 ≤ stretch turns + n := by omega
  have outcome : s.finishes n bus = true ↔
      bus.read 0xFF02 &&& 0x81 = 0x81 ∧ 4096 ≤ stretch turns + n := by
    rw [finishes_eq, Bool.and_eq_true, decide_eq_true_iff, due, Bus.transferring, beq_iff_eq]
  have stepped : after = _ := step_eq n s bus
  refine ⟨ran.sent, by omega, ?_, fun a b => step_add a b s bus⟩
  split
  · rename_i reached
    rw [if_pos (outcome.mpr reached)] at stepped
    rw [stepped]
    exact ⟨rfl, bus.exchanged_data, bus.exchanged_control, bus.exchanged_requested,
      fun a data control requests => bus.exchanged_elsewhere data control requests⟩
  · rename_i unreached
    rw [if_neg (mt outcome.mp unreached)] at stepped
    rw [stepped]
    exact ⟨rfl, rfl⟩

/-- A byte that takes two steps. -/
theorem sends_at_byte_time_twice :
    let bus := ((Bus.boot .standard none).write 0xFF01 0x41).write 0xFF02 0x81
    let s := Serial.idle.step 4000 bus
    s.1.sent = #[] ∧ (s.1.step 96 s.2).1.sent = #[0x41] := by
  intro bus s
  have loaded : Ran (.boot .standard none) [] .idle bus :=
    .access (.access .start (.write .program 0xFF01 0x41)) (.write .program 0xFF02 0x81)
  obtain ⟨-, -, early, -⟩ := loaded.sends_at_byte_time 4000
  obtain ⟨-, -, due, -⟩ := (loaded.step 4000).sends_at_byte_time 96
  rw [if_neg (by decide)] at early
  rw [if_pos (by decide +kernel)] at due
  refine ⟨early.1, due.1.trans ?_⟩
  rw [early.1, early.2]
  decide +kernel

end Serial

end DotMatrix
