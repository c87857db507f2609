import DotMatrix.Proofs.Cpu.Calls

namespace DotMatrix

namespace Interrupts

@[simp] theorem has_inter (s t : Interrupts) (i : Nat) :
    (s.inter t).has i = (s.has i && t.has i) := by
  simp only [has, inter, UInt8.toNat_and, Nat.testBit_and]

/-- The line that is served first is the least in the set. -/
theorem first?_eq_some_iff {s : Interrupts} {i : Fin 8} :
    s.first? = some (line i) ↔ s.has i = true ∧ ∀ j < i, s.has j = false := by
  have least : s.first? = some (line i) ↔ s.lowest? = some i := by
    refine ⟨fun first => ?_, fun lowest => by rw [first?, lowest]; rfl⟩
    obtain ⟨j, lowest, same⟩ := Option.map_eq_some_iff.mp first
    rw [lowest, line_injective same]
  rw [least, lowest?, List.find?_eq_some_iff_getElem]
  constructor
  · rintro ⟨member, n, bound, rfl, before⟩
    refine ⟨member, fun j less => ?_⟩
    have earlier : j.val < n := by simpa [Fin.lt_def] using less
    simpa [has] using before j.val earlier
  · rintro ⟨member, before⟩
    refine ⟨member, i.val, by simp, by simp, fun j less => ?_⟩
    simpa [has] using before ⟨j, less.trans i.isLt⟩ less

end Interrupts

open Interrupts (line)

namespace Bus

variable {s : Bus} {i : Fin 5}

/-- The line is requested and enabled. -/
def Due (s : Bus) (i : Fin 5) : Prop :=
  s.requested.has i = true ∧ s.enabled.toNat.testBit i = true

/-- The line is no longer requested. -/
def dismissed (s : Bus) (i : Fin 5) : Bus :=
  { s with requested := s.requested.diff (line (i.castLE (by decide))) }

/-- The address of the handler, eight bytes a line from 0x40 on. -/
def vector (i : Fin 5) : UInt16 := 0x40 + 8 * UInt16.ofNat i

theorem has_pending (s : Bus) (j : Nat) : s.pending.has j =
    (s.requested.has j && (decide (j < 5) && s.enabled.toNat.testBit j)) := by
  rw [pending, Interrupts.has_inter, Interrupts.has_ofByte]

theorem due_iff : s.Due i ↔ s.pending.has i = true := by
  simp only [Due, has_pending, i.isLt, decide_true, Bool.true_and, Bool.and_eq_true]

/-- The least line that is due is served first. -/
theorem first_of_due (due : s.Due i) (first : ∀ j < i, ¬s.Due j) :
    s.pending.first? = some (line (i.castLE (by decide))) := by
  refine Interrupts.first?_eq_some_iff.mpr ⟨due_iff.mp due, fun j less => ?_⟩
  have absent := first ⟨j.val, (show j.val < i.val from less).trans i.isLt⟩ less
  rwa [due_iff, Bool.not_eq_true] at absent

theorem first_of_none (quiet : ∀ j, ¬s.Due j) : s.pending.first? = none := by
  cases first : s.pending.first? with
  | none => rfl
  | some t =>
    obtain ⟨j, member, -⟩ := Interrupts.first?_eq_some first
    have bound : j.val < 5 := by
      rw [has_pending, Bool.and_eq_true, Bool.and_eq_true] at member
      exact of_decide_eq_true member.2.1
    exact absurd (due_iff.mpr member) (quiet ⟨j.val, bound⟩)

theorem handler_line (i : Fin 5) : (line (i.castLE (by decide))).handler = vector i := by
  revert i
  decide

theorem vector_lt (i : Fin 5) : vector i < 0x8000 := by
  revert i
  decide

/-- No stack reaches the handlers. -/
theorem vector_not_below {sp : UInt16} (upper : Plain (sp - 1)) (lower : Plain (sp - 2))
    (i : Fin 5) : ¬Below sp 2 (vector i) := by
  have two := upper.two_le
  have low : (vector i).toNat < 0x8000 := UInt16.lt_iff_toNat_lt.mp (vector_lt i)
  rw [below_pair two, shows_iff, shows_iff, toNat_sub_one two, toNat_sub_two two]
  rw [plain_iff, toNat_sub_two two] at lower
  rw [plain_iff, toNat_sub_one two] at upper
  omega

end Bus

namespace Core

open Bus (Plain Below vector)

variable {s : Core} {i : Fin 5}

/-- The handler is about to run. -/
def entered (s : Core) (i : Fin 5) : Core where
  cpu := { s.cpu with
    pc := vector i, sp := s.cpu.sp - 2, ime := false, imeNext := false, halted := false }
  bus := (push ⟨s.cpu, s.bus.dismissed i⟩ s.cpu.pc).bus

/-- With interrupts enabled the least line that is due is entered, for twenty cycles. -/
theorem serve_of_due (enabled : s.cpu.ime = true) (going : s.cpu.stopped = false) (due : s.bus.Due i)
    (first : ∀ j < i, ¬s.bus.Due j) : s.serve = (20, s.entered i) := by
  have pending := Bus.first_of_due due first
  rw [serve_of_some going pending, if_pos enabled, woken_of_some going pending]
  simp only [dispatch, call, jump, Bus.handler_line]
  rfl

section Entered

variable (upper : Plain (s.cpu.sp - 1)) (lower : Plain (s.cpu.sp - 2)) (i : Fin 5)
include upper lower

/-- On entry the return address is written below the stack pointer, and nothing else. -/
theorem entered_bus :
    (s.entered i).bus.read (s.cpu.sp - 1) = high s.cpu.pc ∧
      (s.entered i).bus.read (s.cpu.sp - 2) = low s.cpu.pc ∧
      (s.bus.dismissed i).Overwritten (s.entered i).bus (Below s.cpu.sp 2) :=
  Bus.write_pair upper lower _ _ _

theorem entered_requested (j : Nat) : (s.entered i).bus.requested.has j =
    (s.bus.requested.has j && decide (j ≠ i.val)) := by
  rw [(entered_bus upper lower i).2.2.requested, Bus.dismissed, Interrupts.has_diff,
    Interrupts.has_line]
  simp [eq_comm]

/-- If no other line was due, none is on entry. -/
theorem entered_quiet (alone : ∀ j, j ≠ i → ¬s.bus.Due j) :
    (s.entered i).bus.pending.first? = none := by
  rw [(entered_bus upper lower i).2.2.pending]
  refine Bus.first_of_none fun j due => ?_
  obtain ⟨requested, enabled⟩ := due
  simp only [Bus.dismissed, Interrupts.has_diff, Interrupts.has_line, Bool.and_eq_true] at requested
  have other : j ≠ i := by
    rintro rfl
    simp at requested
  exact alone j other ⟨requested.1, enabled⟩

/-- The handler's code is out of reach of the return address. -/
theorem entered_opcode : (s.entered i).immediate = s.bus.read (vector i) := by
  have kept := (entered_bus upper lower i).2.2.outside _ (Bus.vector_not_below upper lower i)
  calc (s.entered i).immediate
      = (s.entered i).bus.read (vector i) := rfl
    _ = s.bus.read (vector i) := by
      rw [kept]
      simp only [Bus.read, Cell.ofAddress_of_lt (Bus.vector_lt i), Bus.readCell, Bus.dismissed]

/-- The return from a handler restores what its entry has saved. -/
theorem entered_ret : ((s.entered i).skip 1).ret =
    ⟨{ s.cpu with ime := false, imeNext := false, halted := false }, (s.entered i).bus⟩ := by
  have top : ((s.entered i).skip 1).top = s.cpu.pc :=
    top_of_pushed (s := ⟨s.cpu, s.bus.dismissed i⟩) upper lower rfl rfl rfl
  rw [ret, top]
  simp only [drop, jump, skip, entered, UInt16.sub_add_cancel]

/-- The handler returns at once. Nothing else is due when interrupts are served again. -/
theorem entered_step (enabled : s.cpu.ime = true) (going : s.cpu.stopped = false)
    (unlocked : s.cpu.fault = none) (single : s.cpu.doubleFetch = false)
    (returns : s.bus.read (vector i) = 0xD9) (alone : ∀ j, j ≠ i → ¬s.bus.Due j) :
    (s.entered i).step = (.ok 16,
      ⟨{ s.cpu with imeNext := false, halted := false, cycles := s.cpu.cycles + 16 },
        (s.entered i).bus⟩) := by
  have meaning : Instruction.decode (s.entered i).immediate = some .retInterrupt := by
    rw [entered_opcode upper lower i, returns]
    rfl
  have run : Instruction.run .retInterrupt ((s.entered i).skip 1) =
      ⟨{ s.cpu with imeNext := false, halted := false }, (s.entered i).bus⟩ := by
    simp only [Instruction.run, entered_ret upper lower i, enabled]
  have outcome : (s.entered i).slot =
      (.ok 16, ⟨{ s.cpu with imeNext := false, halted := false }, (s.entered i).bus⟩) := by
    rw [slot_of_decode (s := s.entered i) going rfl meaning,
      fetched_of_single (s := s.entered i) single, run]
    rfl
  have ready : (s.entered i).cpu.fault = none := unlocked
  have served : (s.entered i).dispatched? = none := by
    rw [dispatched?_of_slot ready outcome, entered_quiet upper lower i alone, ite_self]
  rw [step_of_none ready outcome served]
  rfl

end Entered

/-- With interrupts enabled, the least line that is due is served. Its request is dropped, the
old place in the program goes on the stack, and a handler that returns at once brings back every
register and whether interrupts are enabled. With no line due nothing happens. -/
theorem serve_transparent {s : Core} (enabled : s.cpu.ime = true) (going : s.cpu.stopped = false)
    (unlocked : s.cpu.fault = none) (single : s.cpu.doubleFetch = false)
    (upper : Plain (s.cpu.sp - 1)) (lower : Plain (s.cpu.sp - 2)) :
    ((∀ i, ¬s.bus.Due i) → s.serve = (0, s)) ∧
    ∀ i, s.bus.Due i → (∀ j < i, ¬s.bus.Due j) →
      let t := s.serve.2
      s.serve.1 = 20 ∧
      t.cpu = { s.cpu with
        pc := vector i, sp := s.cpu.sp - 2, ime := false, imeNext := false, halted := false } ∧
      (∀ j, t.bus.requested.has j = (s.bus.requested.has j && decide (j ≠ i.val))) ∧
      t.bus.read (s.cpu.sp - 1) = high s.cpu.pc ∧ t.bus.read (s.cpu.sp - 2) = low s.cpu.pc ∧
      { s.bus with requested := t.bus.requested }.Overwritten t.bus (Below s.cpu.sp 2) ∧
      (s.bus.read (vector i) = 0xD9 → (∀ j, j ≠ i → ¬s.bus.Due j) →
        t.step = (.ok 16,
          ⟨{ s.cpu with imeNext := false, halted := false, cycles := s.cpu.cycles + 16 }, t.bus⟩)) := by
  refine ⟨fun quiet => serve_of_none (Bus.first_of_none quiet), fun i due first => ?_⟩
  obtain ⟨atHigh, atLow, memory⟩ := entered_bus upper lower i
  rw [serve_of_due enabled going due first]
  exact ⟨rfl, rfl, entered_requested upper lower i, atHigh, atLow, memory.requested ▸ memory,
    entered_step upper lower i enabled going unlocked single⟩

/-- The processor as it starts with the cartridge, but with interrupts enabled and the vertical
blank due. -/
def blankStart (c : Cartridge) : Core where
  cpu := { Cpu.boot .standard with ime := true }
  bus := { Bus.boot .standard (some c) with enabled := 1 }

theorem blankStart_due (c : Cartridge) (i : Fin 5) : (blankStart c).bus.Due i ↔ i = 0 := by
  change Interrupts.vblank.has i = true ∧ (1 : UInt8).toNat.testBit i = true ↔ _
  revert i
  decide

/-- A handler that returns at once, on a new machine with one line due. -/
theorem serve_transparent_of_blank : ∃ c, c.read 0x40 = 0xD9 ∧
    (blankStart c).serve.1 = 20 ∧ (blankStart c).serve.2.cpu.pc = 0x40 ∧
    (blankStart c).serve.2.step = (.ok 16,
      ⟨{ (blankStart c).cpu with cycles := 16 }, (blankStart c).serve.2.bus⟩) := by
  obtain ⟨c, -, reads⟩ := Cartridge.exists_plain (fun n => if n = 0x40 then 0xD9 else 0) rfl rfl rfl
  have returns : c.read 0x40 = 0xD9 := reads 0x40 (by decide)
  have vector : (blankStart c).bus.read (vector 0) = 0xD9 :=
    (Bus.read_of_lt rfl (Bus.vector_lt 0)).trans returns
  obtain ⟨cost, cpu, -, -, -, -, handler⟩ := (serve_transparent (s := blankStart c) rfl rfl rfl rfl
    (by decide : Plain (0xFFFE - 1)) (by decide : Plain (0xFFFE - 2))).2 0
    ((blankStart_due c 0).mpr rfl) fun j less => absurd less (Nat.not_lt_zero _)
  exact ⟨c, returns, cost, congrArg Cpu.pc cpu,
    handler vector fun j other due => other ((blankStart_due c j).mp due)⟩

end Core

end DotMatrix
