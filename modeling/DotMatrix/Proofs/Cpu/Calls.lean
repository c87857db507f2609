import DotMatrix.Proofs.Cpu.Enabling
import DotMatrix.Proofs.Cpu.Flags
import DotMatrix.Proofs.Cpu.Stack

namespace DotMatrix

/-- The same registers `n` cycles later. Enabling that was delayed has come into effect. -/
def Cpu.later (n : Nat) (s : Cpu) : Cpu :=
  { s with cycles := s.cycles + n, ime := s.ime || s.imeNext, imeNext := false }

@[simp] theorem Cpu.later_later (m n : Nat) (s : Cpu) : (s.later m).later n = s.later (m + n) := by
  simp only [later, Bool.or_false, Nat.add_assoc]

/-- A pair survives the stack, AF too while F holds nothing but flags. -/
theorem Cpu.withStackPair_stackPair {s : Cpu} (tidy : Flags.Tidy s.f) (p : StackPair) :
    s.withStackPair p (s.stackPair p) = s := by
  cases p with
  | af =>
    simp only [withStackPair, withAF, stackPair, af, high_word, low_word]
    rw [tidy]
  | bc => simp only [withStackPair, withBC, stackPair, bc, high_word, low_word]
  | de => simp only [withStackPair, withDE, stackPair, de, high_word, low_word]
  | hl => simp only [withStackPair, withHL, stackPair, hl, high_word, low_word]

/-- The instruction leaves the control state alone. -/
def Instruction.Steady (i : Instruction) : Prop := ∀ pending c, i.steer pending c = c

namespace Core

open Bus (Below Room)

variable {s : Core} {i j : Instruction} {a w : UInt16}

theorem fetched_of_single (single : s.cpu.doubleFetch = false) : s.fetched = s.skip 1 := by
  simp only [fetched, single, Bool.false_eq_true, if_false]

/-- After an instruction that announces nothing itself, settling carries out what was announced
before. -/
theorem settle_same {t : Core} (same : t.cpu.imeNext = s.cpu.imeNext) :
    t.settle s.cpu.imeNext = ⟨t.cpu.later 0, t.bus⟩ := by
  cases next : s.cpu.imeNext with
  | true =>
    simp only [settle, Cpu.later, same, next, Bool.and_self, if_true, Bool.or_true, Nat.add_zero]
  | false =>
    simp only [settle, Cpu.later, same, next, Bool.and_self, Bool.false_eq_true, if_false,
      Bool.or_false, Nat.add_zero]
    rw [← next, ← same]

/-- A quiet step with a steady instruction is that instruction and its cycles. -/
theorem step_of_steady (steady : i.Steady) (executed : s.executed? = some i)
    (single : s.cpu.doubleFetch = false) (quiet : s.dispatched? = none) :
    s.step.2 = ⟨(i.run (s.skip 1)).cpu.later (i.cost (s.skip 1)), (i.run (s.skip 1)).bus⟩ := by
  obtain ⟨unlocked, going, running, meaning⟩ := ready_of_executed executed
  have outcome := slot_of_decode going running meaning
  have control : (i.run (s.skip 1)).cpu.control = s.cpu.control :=
    (i.run_control _).trans (steady _ _)
  rw [fetched_of_single single, settle_same (congrArg Control.imeNext control)] at outcome
  have awake : (i.run (s.skip 1)).cpu.halted = false :=
    (congrArg Control.halted control).trans running
  rw [step_of_none unlocked outcome quiet]
  simp only [elapse, Cpu.elapse, woken, Cpu.later, awake, Bool.false_and, Nat.add_zero]

/-- Interrupts that are disabled stay so while the control state is left alone. -/
theorem quiet_of_steady (steady : i.Steady) (executed : s.executed? = some i)
    (disabled : s.cpu.ime = false) (calm : s.cpu.imeNext = false) : s.dispatched? = none := by
  refine (quiet_of_executed executed fun pending => ?_).1
  rw [Control.instruct, steady, Control.settle_ime]
  simp only [Cpu.control, disabled, calm, Bool.and_self, Bool.or_self]

/-- There is room for a word on the stack, nothing is fetched twice and no interrupt is served in
the next step. -/
structure Poised (s : Core) : Prop where
  room : Room s.cpu.sp 2
  single : s.cpu.doubleFetch = false
  quiet : s.dispatched? = none

/-- An instruction stands at the address, out of reach of a word that is pushed. -/
def Lasting (s : Core) (a : UInt16) (i : Instruction) : Prop :=
  ¬Below s.cpu.sp 2 a ∧ Instruction.decode (s.bus.read a) = some i

/-- All registers are as they were, but for the place in the program, and the memory has at most
changed in the word below the stack. -/
structure Restored (s t : Core) (a : UInt16) (n : Nat) : Prop where
  registers : t.cpu = { s.cpu with pc := a }.later n
  memory : s.bus.Overwritten t.bus (Below s.cpu.sp 2)

/-- The word is on the stack and the program goes on at the address, `n` cycles later. -/
def stacked (s : Core) (w a : UInt16) (n : Nat) : Core :=
  ⟨{ s.cpu with pc := a, sp := s.cpu.sp - 2 }.later n, (s.push w).bus⟩

section Stacked

variable (room : Room s.cpu.sp 2) (w a : UInt16) (n : Nat)
include room

/-- A pushed word changes nothing but the two bytes below the stack pointer. -/
theorem stacked_overwritten : s.bus.Overwritten (s.stacked w a n).bus (Below s.cpu.sp 2) :=
  push_overwritten room.pair.1 room.pair.2 w

theorem stacked_top : (s.stacked w a n).top = w :=
  top_of_pushed room.pair.1 room.pair.2 rfl rfl rfl

omit room in
theorem stacked_drop :
    (s.stacked w a n).drop = ⟨{ s.cpu with pc := a }.later n, (s.stacked w a n).bus⟩ := by
  simp only [stacked, drop, Cpu.later, UInt16.sub_add_cancel]

/-- A word that is taken off without being used up leaves the registers as they were. -/
theorem pop_stacked (tidy : Flags.Tidy s.cpu.f) (p : StackPair) :
    Instruction.run (.pop p) (s.stacked (s.cpu.stackPair p) a n) =
      ⟨{ s.cpu with pc := a }.later n, (s.stacked (s.cpu.stackPair p) a n).bus⟩ := by
  have same : (({ s.cpu with pc := a }.later n).stackPair p) = s.cpu.stackPair p := by
    cases p <;> rfl
  simp only [Instruction.run, stacked_top room, stacked_drop, ← same]
  rw [Cpu.withStackPair_stackPair (by exact tidy)]

theorem ret_stacked {back : Option Condition} (taken : Condition.allows s.cpu.f back = true) :
    Instruction.run (.ret back) (s.stacked w a n) =
      ⟨{ s.cpu with pc := w }.later n, (s.stacked w a n).bus⟩ := by
  have allows : Condition.allows (s.stacked w a n).cpu.f back = true := taken
  simp only [Instruction.run, allows, if_true, ret, stacked_top room, stacked_drop]
  rfl

end Stacked

/-- The instruction pushes the word and goes on at the address. -/
structure Pushes (s : Core) (i : Instruction) (w a : UInt16) : Prop where
  steady : i.Steady
  executed : s.executed? = some i
  run : i.run (s.skip 1) = (s.push w).jump a

namespace Pushes

variable (pushes : s.Pushes i w a) (poised : s.Poised)
include pushes poised

/-- The first step pushes the word and goes to the target. -/
theorem step : s.step.2 = s.stacked w a (i.cost (s.skip 1)) := by
  rw [step_of_steady pushes.steady pushes.executed poised.single poised.quiet, pushes.run]
  rfl

/-- What was to be executed at the target still is, after the push. -/
theorem next (lasting : s.Lasting a j) : s.step.2.executed? = some j := by
  obtain ⟨unlocked, going, running, -⟩ := ready_of_executed pushes.executed
  have opcode := (stacked_overwritten poised.room w a (i.cost (s.skip 1))).outside a lasting.1
  have meaning : Instruction.decode ((s.stacked w a (i.cost (s.skip 1))).bus.read a) = some j := by
    rw [opcode, lasting.2]
  rw [pushes.step poised, ← meaning]
  simp only [executed?, stacked, Cpu.later, unlocked, going, running, Option.isSome_none,
    Bool.or_self, Bool.false_eq_true, if_false]
  rfl

/-- The instruction that follows takes the word off again and undoes the rest. -/
theorem restored {b : UInt16} (quiet : s.step.2.dispatched? = none) (lasting : s.Lasting a j)
    (steady : j.Steady)
    (run : ∀ n, j.run (s.stacked w (a + 1) n) =
      ⟨{ s.cpu with pc := b }.later n, (s.stacked w (a + 1) n).bus⟩)
    (cost : ∀ n, j.cost (s.stacked w (a + 1) n) = j.cost s) :
    s.Restored s.step.2.step.2 b (i.cost (s.skip 1) + j.cost s) := by
  have executed := pushes.next poised lasting
  rw [pushes.step poised] at executed quiet ⊢
  rw [step_of_steady steady executed poised.single quiet]
  change s.Restored ⟨(j.run (s.stacked w (a + 1) _)).cpu.later (j.cost (s.stacked w (a + 1) _)),
    (j.run (s.stacked w (a + 1) _)).bus⟩ _ _
  rw [run, cost]
  exact ⟨Cpu.later_later _ _ _, stacked_overwritten poised.room w (a + 1) (i.cost (s.skip 1))⟩

end Pushes

theorem pushes_push {p : StackPair} (executed : s.executed? = some (.push p)) :
    s.Pushes (.push p) (s.cpu.stackPair p) (s.cpu.pc + 1) :=
  ⟨fun _ _ => rfl, executed, by cases p <;> rfl⟩

/-- A call that is taken pushes the address of what follows it. -/
theorem pushes_call {when : Option Condition} (executed : s.executed? = some (.call when))
    (taken : Condition.allows s.cpu.f when = true) :
    s.Pushes (.call when) (s.cpu.pc + 3)
      (word (s.bus.read (s.cpu.pc + 2)) (s.bus.read (s.cpu.pc + 1))) := by
  refine ⟨fun _ _ => rfl, executed, ?_⟩
  have upper : s.cpu.pc + 1 + 1 = s.cpu.pc + 2 := UInt16.add_assoc _ _ _
  have target : (s.skip 1).immediateWord =
      word (s.bus.read (s.cpu.pc + 2)) (s.bus.read (s.cpu.pc + 1)) := by
    simp only [immediateWord, skip, jump, upper]
  have back : ((s.skip 1).skip 2).cpu.pc = s.cpu.pc + 3 := UInt16.add_assoc _ _ _
  calc Instruction.run (.call when) (s.skip 1)
      = ((s.skip 1).skip 2).call (s.skip 1).immediateWord := if_pos taken
    _ = _ := by
      rw [call, target, back]
      rfl

theorem pushes_restart {target : UInt16} (executed : s.executed? = some (.restart target)) :
    s.Pushes (.restart target) (s.cpu.pc + 1) target :=
  ⟨fun _ _ => rfl, executed, rfl⟩

section

variable (poised : s.Poised) (quiet : s.step.2.dispatched? = none)
include poised quiet

/-- A pop of the same pair gives it back what was pushed. -/
theorem restored_pop {p : StackPair} (pushes : s.Pushes i (s.cpu.stackPair p) a)
    (tidy : Flags.Tidy s.cpu.f) (lasting : s.Lasting a (.pop p)) :
    s.Restored s.step.2.step.2 (a + 1) (i.cost (s.skip 1) + 12) :=
  pushes.restored poised quiet lasting (fun _ _ => rfl)
    (fun n => pop_stacked poised.room _ n tidy p) fun _ => rfl

/-- A return that is taken leads back behind the call. -/
theorem restored_ret {back : Option Condition} (pushes : s.Pushes i w a)
    (lasting : s.Lasting a (.ret back)) (taken : Condition.allows s.cpu.f back = true) :
    s.Restored s.step.2.step.2 w (i.cost (s.skip 1) + (Instruction.ret back).cost s) :=
  pushes.restored poised quiet lasting (fun _ _ => rfl)
    (fun n => ret_stacked poised.room w (a + 1) n taken) fun _ => by cases back <;> rfl

end

/-- Words come off the stack in reverse. What the stack does not overlay is left alone, and a pair
that is pushed and popped, or a subroutine that only returns, leaves every register as it was. -/
theorem stack_lifo :
    (∀ (s : Core) (words : List UInt16), Room s.cpu.sp (2 * words.length) →
      (s.pushAll words).popAll words.length = (words.reverse, ⟨s.cpu, (s.pushAll words).bus⟩) ∧
      s.bus.Overwritten (s.pushAll words).bus (Below s.cpu.sp (2 * words.length))) ∧
    ∀ s : Core, s.Reach → s.Poised → s.step.2.dispatched? = none →
      (∀ p, s.executed? = some (.push p) → s.Lasting (s.cpu.pc + 1) (.pop p) →
        s.Restored s.step.2.step.2 (s.cpu.pc + 2) 28) ∧
      (∀ when back, s.executed? = some (.call when) → Condition.allows s.cpu.f when = true →
        s.Lasting (word (s.bus.read (s.cpu.pc + 2)) (s.bus.read (s.cpu.pc + 1))) (.ret back) →
        Condition.allows s.cpu.f back = true →
        s.Restored s.step.2.step.2 (s.cpu.pc + 3) (24 + (Instruction.ret back).cost s)) ∧
      ∀ target back, s.executed? = some (.restart target) → s.Lasting target (.ret back) →
        Condition.allows s.cpu.f back = true →
        s.Restored s.step.2.step.2 (s.cpu.pc + 1) (16 + (Instruction.ret back).cost s) := by
  refine ⟨fun s words room => ⟨popAll_pushAll words room, pushAll_overwritten words room⟩,
    fun s reach poised quiet => ⟨?_, ?_, ?_⟩⟩
  · intro p executed lasting
    have second : s.cpu.pc + 1 + 1 = s.cpu.pc + 2 := UInt16.add_assoc _ _ _
    exact second ▸ restored_pop poised quiet (pushes_push executed) reach.tidy lasting
  · intro when back executed called lasting taken
    have cost : (Instruction.call when).cost (s.skip 1) = 24 := if_pos called
    exact cost ▸ restored_ret poised quiet (pushes_call executed called) lasting taken
  · intro target back executed lasting taken
    exact restored_ret poised quiet (pushes_restart executed) lasting taken

/-- The processor as it starts with the cartridge. -/
def start (c : Cartridge) : Core := ⟨.boot .standard, .boot .standard (some c)⟩

/-- Some program begins with a given byte. -/
theorem exists_start (opcode : UInt8) : ∃ c, (start c).immediate = opcode := by
  obtain ⟨c, -, reads⟩ :=
    Cartridge.exists_plain (fun n => if n = 0x100 then opcode else 0) rfl rfl rfl
  have first : (0x100 : UInt16) < 0x8000 := by decide
  exact ⟨c, (Bus.read_of_lt rfl first).trans (reads 0x100 first)⟩

section Start

variable {c : Cartridge}

theorem start_lasting (low : a < 0x8000) (code : Instruction.decode (c.read a) = some i) :
    (start c).Lasting a i := by
  refine ⟨?_, ?_⟩
  · rintro ⟨b, above, -, shown⟩
    change 0xFFFE ≤ b.toNat + 2 at above
    rw [Bus.shows_iff] at shown
    simp only [UInt16.lt_iff_toNat_lt, UInt16.reduceToNat] at low
    omega
  · rwa [show (start c).bus.read a = c.read a from Bus.read_of_lt rfl low]

theorem start_executed (code : Instruction.decode (c.read 0x100) = some i) :
    (start c).executed? = some i :=
  (start_lasting (by decide) code).2

/-- A new processor has everything that a pair of steps asks for. -/
theorem start_poised (steady : i.Steady) (code : Instruction.decode (c.read 0x100) = some i) :
    (start c).Poised where
  room := (by decide : Room 0xFFFE 2)
  single := rfl
  quiet := quiet_of_steady steady (start_executed code) rfl rfl

/-- Nothing is enabled at the start, so no interrupt comes between. -/
theorem start_quiet (pushes : (start c).Pushes i w a) (poised : (start c).Poised)
    (lasting : (start c).Lasting a j) (steady : j.Steady) : (start c).step.2.dispatched? = none := by
  have executed := pushes.next poised lasting
  rw [pushes.step poised] at executed ⊢
  exact quiet_of_steady steady executed rfl rfl

end Start

/-- A word pushed and popped, and two subroutines that only return. -/
theorem stack_lifo_from_start :
    (∃ c, (start c).executed? = some (.push .af) ∧
      ((start c).pushAll [1, 2, 3]).popAll 3 =
        ([3, 2, 1], ⟨(start c).cpu, ((start c).pushAll [1, 2, 3]).bus⟩) ∧
      (start c).Restored (start c).step.2.step.2 0x102 28) ∧
    (∃ c, (start c).executed? = some (.call none) ∧
      (start c).Restored (start c).step.2.step.2 0x103 40) ∧
    ∃ c, (start c).executed? = some (.restart 0) ∧
      (start c).Restored (start c).step.2.step.2 0x101 32 := by
  refine ⟨?_, ?_, ?_⟩
  · obtain ⟨c, -, reads⟩ := Cartridge.exists_plain
      (fun n => if n = 0x100 then 0xF5 else if n = 0x101 then 0xF1 else 0) rfl rfl rfl
    have code : Instruction.decode (c.read 0x100) = some (.push .af) := by
      rw [reads 0x100 (by decide)]
      rfl
    have poised := start_poised (fun _ _ => rfl) code
    have lasting : (start c).Lasting 0x101 (.pop .af) :=
      start_lasting (by decide) (by rw [reads 0x101 (by decide)]; rfl)
    have quiet := start_quiet (pushes_push (start_executed code)) poised lasting fun _ _ => rfl
    exact ⟨c, start_executed code, (stack_lifo.1 _ [1, 2, 3] (by decide : Room 0xFFFE 6)).1,
      (stack_lifo.2 (start c) (.boot .standard _) poised quiet).1 .af (start_executed code) lasting⟩
  · obtain ⟨c, -, reads⟩ := Cartridge.exists_plain
      (fun n => if n = 0x100 then 0xCD else if n = 0x102 then 0x02 else
        if n = 0x200 then 0xC9 else 0) rfl rfl rfl
    have code : Instruction.decode (c.read 0x100) = some (.call none) := by
      rw [reads 0x100 (by decide)]
      rfl
    have target : word ((start c).bus.read (0x100 + 2)) ((start c).bus.read (0x100 + 1)) = 0x200 := by
      rw [start, Bus.read_of_lt rfl (by decide), Bus.read_of_lt rfl (by decide), reads _ (by decide),
        reads _ (by decide)]
      rfl
    have poised := start_poised (fun _ _ => rfl) code
    have lasting : (start c).Lasting 0x200 (.ret none) :=
      start_lasting (by decide) (by rw [reads 0x200 (by decide)]; rfl)
    rw [← target] at lasting
    have quiet := start_quiet (pushes_call (start_executed code) rfl) poised lasting fun _ _ => rfl
    exact ⟨c, start_executed code, (stack_lifo.2 (start c) (.boot .standard _) poised quiet).2.1
      none none (start_executed code) rfl lasting rfl⟩
  · obtain ⟨c, -, reads⟩ := Cartridge.exists_plain
      (fun n => if n = 0x100 then 0xC7 else if n = 0 then 0xC9 else 0) rfl rfl rfl
    have code : Instruction.decode (c.read 0x100) = some (.restart 0) := by
      rw [reads 0x100 (by decide)]
      rfl
    have poised := start_poised (fun _ _ => rfl) code
    have lasting : (start c).Lasting 0 (.ret none) :=
      start_lasting (by decide) (by rw [reads 0 (by decide)]; rfl)
    have quiet := start_quiet (pushes_restart (start_executed code)) poised lasting fun _ _ => rfl
    exact ⟨c, start_executed code, (stack_lifo.2 (start c) (.boot .standard _) poised quiet).2.2
      0 none (start_executed code) lasting rfl⟩

end Core

end DotMatrix
