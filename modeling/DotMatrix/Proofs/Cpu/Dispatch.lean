import DotMatrix.Proofs.Cartridge.Rom
import DotMatrix.Proofs.Cpu.Latches

namespace DotMatrix

namespace Core

/-- A dispatch keeps the double fetch for the handler. -/
theorem dispatch_doubleFetch (i : Interrupts) (s : Core) :
    (dispatch i s).cpu.doubleFetch = s.cpu.doubleFetch := rfl

/-- An armed double fetch costs the program counter one step. -/
theorem fetched_pc (s : Core) :
    s.fetched.cpu.pc = if s.cpu.doubleFetch then s.cpu.pc else s.cpu.pc + 1 := by
  unfold fetched
  split <;> rfl

/-- After a slot in which interrupts are enabled and one is pending, the double fetch is armed only
by a halt that came while enabling was delayed. -/
theorem Slotted.doubleFetch_iff {s t : Core} {n : Nat} {i : Interrupts} (slot : Slotted s (.ok n, t))
    (orderly : s.cpu.control.Orderly) (enabled : t.cpu.ime = true)
    (pending : t.bus.pending.first? = some i) :
    t.cpu.doubleFetch = true ↔
      Instruction.decode s.immediate = some .halt ∧ s.cpu.imeNext = true := by
  have still (idle : s.cpu.control.halted = true ∨ s.cpu.control.stopped = true) :
      s.cpu.doubleFetch = true ↔
        Instruction.decode s.immediate = some .halt ∧ s.cpu.imeNext = true := by
    obtain ⟨next, fetch⟩ := orderly.idle idle
    change s.cpu.imeNext = false at next
    change s.cpu.doubleFetch = false at fetch
    simp [next, fetch]
  cases slot with
  | stop stopped => exact still (Or.inr stopped)
  | halt _ halted => exact still (Or.inl halted)
  | @instruction instruction _ _ meaning =>
    have control := instruction_control s instruction
    have after := (congrArg Control.ime control).symm.trans enabled
    -- A halt writes nothing, so what is served now was pending when it was executed.
    have requested : instruction = .halt → (!s.bus.pending.isEmpty) = true := by
      rintro rfl
      rw [settle_bus] at pending
      have same : (Instruction.run .halt s.fetched).bus = s.bus := by
        simp only [Instruction.run]
        split <;> exact fetched_bus s
      rw [same] at pending
      rw [Interrupts.isEmpty_of_first? pending]
      rfl
    have armed := Control.instruct_doubleFetch orderly after requested
    rw [← control] at armed
    rw [meaning, Option.some.injEq]
    exact armed

/-- The double fetch is armed after a dispatch exactly if a halt was executed in the same step
while enabling was delayed. The halt could not take hold, for interrupts were still disabled; then
they were enabled and one was served. The handler's first opcode is fetched twice. After any other
dispatch it is fetched once. -/
theorem Reach.doubleFetch_of_dispatch {s : Core} {i : Interrupts} (reach : s.Reach)
    (dispatched : s.dispatched? = some i) :
    (s.step.2.cpu.doubleFetch = true ↔
      Instruction.decode s.immediate = some .halt ∧ s.cpu.imeNext = true) ∧
    s.step.2.cpu.pc = i.handler ∧
    s.step.2.fetched.cpu.pc = if s.step.2.cpu.doubleFetch then i.handler else i.handler + 1 := by
  have slot := s.slotted
  have step := s.stepped
  generalize s.step = result at step ⊢
  cases step with
  | locked locked => simp [dispatched?, locked] at dispatched
  | failed unlocked outcome => simp [dispatched?, unlocked, outcome] at dispatched
  | plain _ _ quiet => exact absurd (dispatched.symm.trans quiet) (by simp)
  | @served n t j unlocked outcome choice =>
    obtain rfl : i = j := Option.some.inj (dispatched.symm.trans choice)
    obtain ⟨_, enabled, pending⟩ := enabled_of_some unlocked outcome choice
    rw [outcome] at slot
    have kept : ((dispatch i t.woken).elapse (n + 20)).cpu.doubleFetch = t.cpu.doubleFetch :=
      dispatch_doubleFetch i t.woken
    have armed := slot.doubleFetch_iff reach.orderly enabled pending
    rw [← kept] at armed
    exact ⟨armed, rfl, fetched_pc _⟩

/-- Interrupts are enabled and the processor halts. -/
def enableHaltImage : Array UInt8 :=
  Array.ofFn fun i : Fin 0x8000 => if i.val = 0x100 then 0xFB else if i.val = 0x101 then 0x76 else 0

theorem exists_enableHalt :
    ∃ c, Cartridge.ofImage enableHaltImage = .ok c ∧ c.read 0x100 = 0xFB ∧ c.read 0x101 = 0x76 := by
  obtain ⟨c, accepted, reads⟩ := Cartridge.exists_plain
    (fun n => if n = 0x100 then 0xFB else if n = 0x101 then 0x76 else 0) rfl rfl rfl
  exact ⟨c, accepted, reads 0x100 (by decide), reads 0x101 (by decide)⟩

/-- The processor as it starts with the cartridge, while the vertical blank that is requested then
is enabled. -/
def enableHaltStart (c : Cartridge) : Core where
  cpu := .boot .standard
  bus := { Bus.boot .standard (some c) with enabled := 1 }

/-- The machine after the first of the two instructions. -/
def enableHaltNext (c : Cartridge) : Core :=
  { enableHaltStart c with
    cpu := { Cpu.boot .standard with pc := 0x101, imeNext := true, cycles := 4 } }

theorem enableHaltStart_step {c : Cartridge} (enable : c.read 0x100 = 0xFB) :
    (enableHaltStart c).step.2 = enableHaltNext c := by
  have meaning : Instruction.decode (enableHaltStart c).immediate = some .enableInterrupts := by
    rw [show (enableHaltStart c).immediate = c.read 0x100 from rfl, enable]
    rfl
  have outcome : (enableHaltStart c).slot = (.ok 4, { enableHaltStart c with
      cpu := { Cpu.boot .standard with pc := 0x101, imeNext := true } }) :=
    slot_of_decode rfl rfl meaning
  rw [step_of_none rfl outcome (dispatched?_of_slot rfl outcome)]
  rfl

theorem enableHaltNext_decode {c : Cartridge} (halt : c.read 0x101 = 0x76) :
    Instruction.decode (enableHaltNext c).immediate = some .halt := by
  rw [show (enableHaltNext c).immediate = c.read 0x101 from rfl, halt]
  rfl

/-- The slot of the second. The halt fails and then interrupts are enabled. -/
theorem enableHaltNext_slot {c : Cartridge} (halt : c.read 0x101 = 0x76) :
    (enableHaltNext c).slot = (.ok 4, { enableHaltNext c with
      cpu := { Cpu.boot .standard with pc := 0x102, ime := true, doubleFetch := true, cycles := 4 } }) := by
  have empty : (enableHaltNext c).bus.pending.isEmpty = false :=
    (by decide : (Interrupts.vblank.inter (.ofByte 1)).isEmpty = false)
  have requested : (!(enableHaltNext c).cpu.ime && !(enableHaltNext c).bus.pending.isEmpty) = true := by
    rw [empty]
    rfl
  have fails : Instruction.halt.run (enableHaltNext c).fetched = { enableHaltNext c with
      cpu := { Cpu.boot .standard with
        pc := 0x102, imeNext := true, doubleFetch := true, cycles := 4 } } :=
    if_pos requested
  rw [slot_of_decode rfl rfl (enableHaltNext_decode halt), fails]
  rfl

/-- The announcement takes effect with the halt, and the request is served. -/
theorem enableHaltNext_dispatched {c : Cartridge} (halt : c.read 0x101 = 0x76) :
    (enableHaltNext c).dispatched? = some .vblank :=
  (dispatched?_of_slot rfl (enableHaltNext_slot halt)).trans
    (by decide : (Interrupts.vblank.inter (.ofByte 1)).first? = some .vblank)

/-- The handler of the vertical blank is entered with the double fetch armed, so that its first
opcode is fetched without moving on. -/
theorem doubleFetch_in_handler : ∃ c, Cartridge.ofImage enableHaltImage = .ok c ∧
    (enableHaltStart c).step.2.dispatched? = some .vblank ∧
    (enableHaltStart c).step.2.step.2.cpu.doubleFetch = true ∧
    (enableHaltStart c).step.2.step.2.cpu.pc = 0x40 ∧
    (enableHaltStart c).step.2.step.2.fetched.cpu.pc = 0x40 := by
  obtain ⟨c, accepted, enable, halt⟩ := exists_enableHalt
  have dispatched := enableHaltNext_dispatched halt
  have after := congrArg Prod.snd (step_of_some rfl (enableHaltNext_slot halt) dispatched)
  refine ⟨c, accepted, ?_⟩
  rw [enableHaltStart_step enable, after]
  exact ⟨dispatched, rfl, rfl, rfl⟩

/-- The halt finds the request, so it fails and arms the double fetch, which the handler inherits.
-/
theorem doubleFetch_after_enableHalt : ∃ c, Cartridge.ofImage enableHaltImage = .ok c ∧
    (enableHaltNext c).Reach ∧ (enableHaltNext c).dispatched? = some .vblank ∧
    (enableHaltNext c).step.2.cpu.doubleFetch = true := by
  obtain ⟨c, accepted, enable, halt⟩ := exists_enableHalt
  have dispatched := enableHaltNext_dispatched halt
  have reach : (enableHaltNext c).Reach := by
    rw [← enableHaltStart_step enable]
    exact .step (.boot .standard _)
  have armed := (reach.doubleFetch_of_dispatch dispatched).1
  exact ⟨c, accepted, reach, dispatched, armed.mpr ⟨enableHaltNext_decode halt, rfl⟩⟩

end Core

end DotMatrix
