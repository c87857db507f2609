import DotMatrix.Proofs.Bus.Frame
import DotMatrix.Proofs.Bytes

namespace DotMatrix

namespace Registers

@[simp] theorem stored_put_self (file : Registers) (r : Register) (v : UInt8) :
    (file.put r v).stored r = v :=
  Vector.getElem_set_self r.isLt

@[simp] theorem put_stored (file : Registers) (r : Register) : file.put r (file.stored r) = file :=
  Vector.set_getElem_self r.isLt

/-- The bits of a register that belong to the hardware. -/
def fixed (file : Registers) (r : Register) : UInt8 := file.stored r &&& ~~~r.programBits

/-- A game write keeps the bits of a register that it cannot reach. -/
theorem programmed_fixed (file : Registers) (r : Register) (v : UInt8) :
    file.programmed r v &&& ~~~r.programBits = file.fixed r := by
  have outside : r.programBits &&& ~~~r.programBits = 0 := by
    rw [UInt8.and_comm, UInt8.not_and_self]
  rw [programmed, or_and_distrib, UInt8.and_assoc, UInt8.and_self, UInt8.and_assoc, outside,
    UInt8.and_zero, UInt8.or_zero, fixed]

end Registers

namespace Bus

theorem read_register {a : UInt16} {r : Register} (cell : Cell.ofAddress a = .register r)
    (s : Bus) : s.read a = s.registers.visible r := by
  rw [read, cell, readCell]

/-- Whether the program has switched the LCD on. -/
def lcdWanted (s : Bus) : Bool := (s.registers.stored .lcdc).toNat.testBit 7

theorem follow_registers (s : Bus) (r : Register) (v : UInt8) :
    (s.follow r v).registers = s.registers := by
  unfold follow
  split
  · obtain ⟨oam, copied⟩ := copySprites_frame (word v 0) 0xA0 s
    rw [copied]
  · split <;> rfl

/-- No write of a program, wherever it goes, changes a bit that belongs to the hardware. -/
theorem write_fixed (s : Bus) (a : UInt16) (v : UInt8) (r : Register) :
    (s.write a v).registers.fixed r = s.registers.fixed r := by
  unfold write writeBy
  generalize Cell.ofAddress a = cell
  cases cell with
  | timer t =>
    obtain ⟨timer, result⟩ := s.writeTimer_frame .program t v
    simp only [writeCell, result]
  | register t =>
    simp only [writeCell, writeRegister, follow_registers, store]
    by_cases same : t = r
    · rw [same, Registers.fixed, Registers.stored_put_self, Registers.programmed_fixed]
    · rw [Registers.fixed, Registers.stored_put_of_ne same, Registers.fixed]
  | _ => rfl

/-- The registers in which LCD, serial unit and joypad show how they stand. -/
def indicators : List Register := [.p1, .sb, .sc, .stat, .ly]

/-- The requests and those registers may differ, and nothing else. -/
def Undisturbed (s t : Bus) : Prop :=
  ∃ registers requested, t = { s with registers := registers, requested := requested } ∧
    ∀ r ∉ indicators, registers.stored r = s.registers.stored r

theorem Undisturbed.refl (s : Bus) : s.Undisturbed s := ⟨_, _, rfl, fun _ _ => rfl⟩

theorem Undisturbed.trans {s t u : Bus} (first : s.Undisturbed t) (second : t.Undisturbed u) :
    s.Undisturbed u := by
  obtain ⟨_, _, rfl, first⟩ := first
  obtain ⟨_, _, rfl, second⟩ := second
  exact ⟨_, _, rfl, fun r other => (second r other).trans (first r other)⟩

/-- Storing one of the indicators leaves the rest of the bus as it was. -/
theorem Undisturbed.store {s t : Bus} (before : s.Undisturbed t) (r : Register)
    (named : r ∈ indicators) (v : UInt8) : s.Undisturbed (t.store r v) :=
  before.trans ⟨_, _, rfl, fun _ other =>
    Registers.stored_put_of_ne fun same => other (same ▸ named)⟩

theorem Undisturbed.request {s t : Bus} (before : s.Undisturbed t) (i : Interrupts) :
    s.Undisturbed (t.request i) :=
  before.trans ⟨_, _, rfl, fun _ _ => rfl⟩

theorem Undisturbed.request_ite {s t : Bus} (before : s.Undisturbed t) (i : Interrupts) (b : Bool) :
    s.Undisturbed (if b then t.request i else t) := by
  cases b with
  | true => exact before.request i
  | false => exact before

theorem Undisturbed.timer {s t : Bus} (same : s.Undisturbed t) : t.timer = s.timer := by
  obtain ⟨_, _, rfl, -⟩ := same
  rfl

theorem Undisturbed.enabled {s t : Bus} (same : s.Undisturbed t) : t.enabled = s.enabled := by
  obtain ⟨_, _, rfl, -⟩ := same
  rfl

theorem Undisturbed.vram {s t : Bus} (same : s.Undisturbed t) : t.vram = s.vram := by
  obtain ⟨_, _, rfl, -⟩ := same
  rfl

theorem Undisturbed.stored {s t : Bus} (same : s.Undisturbed t) {r : Register}
    (other : r ∉ indicators) : t.registers.stored r = s.registers.stored r := by
  obtain ⟨_, _, rfl, kept⟩ := same
  exact kept r other

/-- The control register is no indicator, so the LCD stays wanted or unwanted. -/
theorem Undisturbed.lcdWanted {s t : Bus} (same : s.Undisturbed t) : t.lcdWanted = s.lcdWanted := by
  rw [Bus.lcdWanted, same.stored (by decide), Bus.lcdWanted]

end Bus

end DotMatrix
