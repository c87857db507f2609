import DotMatrix.Proofs.Bus.Hardware
import Mathlib.Tactic.SplitIfs

namespace DotMatrix

/-- How far a register of the timer lies above 0xFF04. -/
def Timer.Register.place : Timer.Register → Nat
  | divider => 0
  | counter => 1
  | modulo => 2
  | control => 3

/-- The map of the address space. -/
def Cell.At (n : Nat) : Cell → Prop
  | .cartridge => n < 0x8000 ∨ 0xA000 ≤ n ∧ n < 0xC000
  | .vram i => n = 0x8000 + i.val
  | .wram i => n = 0xC000 + i.val ∨ n = 0xE000 + i.val ∧ n < 0xFE00
  | .oam i => n = 0xFE00 + i.val
  | .unusable => 0xFEA0 ≤ n ∧ n < 0xFF00
  | .timer r => n = 0xFF04 + r.place
  | .requests => n = 0xFF0F
  | .register r => n = 0xFF00 + r.val ∧ ¬(0xFF04 ≤ n ∧ n < 0xFF08) ∧ n ≠ 0xFF0F
  | .hram i => n = 0xFF80 + i.val
  | .enables => n = 0xFFFF

theorem Timer.Register.place_lt (r : Timer.Register) : r.place < 4 := by
  cases r <;> decide

theorem Timer.Register.at?_eq_some {a : UInt16} {r : Timer.Register} (found : at? a = some r) :
    a.toNat = 0xFF04 + r.place := by
  unfold at? at found
  split_ifs at found with divider counter modulo control
  all_goals cases found
  · rw [divider]; rfl
  · rw [counter]; rfl
  · rw [modulo]; rfl
  · rw [control]; rfl

theorem Timer.Register.at?_eq_none {a : UInt16} (missing : at? a = none) :
    ¬(0xFF04 ≤ a.toNat ∧ a.toNat < 0xFF08) := by
  unfold at? at missing
  split_ifs at missing with divider counter modulo control
  simp only [← UInt16.toNat_inj, UInt16.reduceToNat] at divider counter modulo control
  omega

theorem Cell.ofAddress_at (a : UInt16) : (ofAddress a).At a.toNat := by
  have bound := a.toNat_lt
  unfold ofAddress
  dsimp only
  split_ifs with rom vram ram wram oam unusable io requests hram
  · exact Or.inl rom
  · simp only [At]; omega
  · exact Or.inr ⟨by omega, ram⟩
  · simp only [At]; omega
  · simp only [At]; omega
  · exact ⟨by omega, unusable⟩
  · split
    · exact Timer.Register.at?_eq_some ‹_›
    · exact requests
  · split
    · exact Timer.Register.at?_eq_some ‹_›
    · rename_i missing
      exact ⟨by dsimp only; omega, Timer.Register.at?_eq_none missing, requests⟩
  · simp only [At]; omega
  · simp only [At]; omega

theorem Register.toNat_address (r : Register) : r.address.toNat = 0xFF00 + r.val := by
  have bound := r.isLt
  simp only [address, UInt16.toNat_add, UInt16.toNat_ofNat', UInt16.reduceToNat]
  omega

/-- A register has one address. -/
theorem Cell.eq_address {a : UInt16} {r : Register} (cell : ofAddress a = .register r) :
    a = r.address := by
  have place := ofAddress_at a
  rw [cell] at place
  exact UInt16.toNat_inj.mp (place.1.trans r.toNat_address.symm)

/-- A hardware register has one address, so no other address leads to it. -/
theorem Cell.ofAddress_eq_register {a b : UInt16} {r : Register} (cell : ofAddress b = .register r) :
    ofAddress a = .register r ↔ a = b := by
  constructor
  · intro same
    exact (eq_address same).trans (eq_address cell).symm
  · rintro rfl
    exact cell

theorem Cell.At.timer_bounds {n : Nat} {r : Timer.Register} (place : Cell.At n (.timer r)) :
    0xFF04 ≤ n ∧ n < 0xFF08 := by
  have few := r.place_lt
  simp only [At] at place
  omega

/-- The cells beside its own that a program's write to a cell changes. -/
inductive Cell.Reaches : Cell → Cell → Prop
  | sprites (i : Fin 0xA0) : Reaches (.register .dma) (.oam i)
  | counter : Reaches (.timer .modulo) (.timer .counter)

theorem getElem_set_other {n : Nat} (bytes : Vector UInt8 n) {i j : Fin n} (other : j ≠ i)
    (v : UInt8) : (bytes.set i v)[j] = bytes[j] :=
  Vector.getElem_set_ne i.isLt j.isLt fun same => other (Fin.ext same.symm)

/-- A timer register shows through no other one, except that the modulo may be copied into the
counter while the counter reloads. -/
theorem Timer.read_write {r q : Timer.Register} (other : q ≠ r)
    (apart : ¬(r = .modulo ∧ q = .counter)) (t : Timer) (v : UInt8) :
    (t.write r v).read q = t.read q := by
  cases r with
  | divider =>
    cases q with
    | divider => exact absurd rfl other
    | _ => rfl
  | counter =>
    simp only [write]
    split
    · rfl
    · cases q with
      | counter => exact absurd rfl other
      | _ => rfl
  | modulo =>
    cases q with
    | modulo => exact absurd rfl other
    | counter => exact absurd ⟨rfl, rfl⟩ apart
    | _ => rfl
  | control =>
    cases q with
    | control => exact absurd rfl other
    | _ => rfl

namespace Registers

theorem visible_put_of_ne {file : Registers} {r q : Register} {v : UInt8} (other : q ≠ r) :
    (file.put r v).visible q = file.visible q := by
  rw [visible, stored_put_of_ne other.symm, visible]

/-- A register shows what was put into it, with its open bits set. -/
theorem visible_put_self (file : Registers) (r : Register) (v : UInt8) :
    (file.put r v).visible r = v ||| r.openBits := by
  rw [visible, stored_put_self]

/-- A register whose bits are all free takes a byte as it comes. -/
theorem programmed_of_free {r : Register} (free : r.programBits = -1) (file : Registers)
    (v : UInt8) : file.programmed r v = v := by
  have nothing : ~~~(-1 : UInt8) = 0 := rfl
  rw [programmed, free, nothing, UInt8.and_zero, UInt8.zero_or, UInt8.and_neg_one]

end Registers

namespace Bus

/-- A byte that the hardware stores is read back with the open bits of its register set. -/
theorem read_store_self {a : UInt16} {r : Register} (cell : Cell.ofAddress a = .register r)
    (s : Bus) (v : UInt8) : (s.store r v).read a = v ||| r.openBits := by
  rw [read_register cell, store, Registers.visible_put_self]

/-- A byte that the hardware stores shows at the address of its register only. -/
theorem read_store_of_ne {a : UInt16} {r : Register} (other : Cell.ofAddress a ≠ .register r)
    (s : Bus) (v : UInt8) : (s.store r v).read a = s.read a := by
  rw [read, read]
  generalize Cell.ofAddress a = c at other
  cases c with
  | register q => exact Registers.visible_put_of_ne fun same => other (congrArg _ same)
  | _ => rfl

theorem read_request {a : UInt16} (other : a ≠ 0xFF0F) (s : Bus) (i : Interrupts) :
    (s.request i).read a = s.read a := by
  have elsewhere := mt Cell.ofAddress_eq_requests.mp other
  rw [read, read]
  generalize Cell.ofAddress a = c at elsewhere
  cases c with
  | requests => exact absurd rfl elsewhere
  | _ => rfl

theorem follow_oam {r : Register} (other : r ≠ .dma) (s : Bus) (v : UInt8) :
    (s.follow r v).oam = s.oam := by
  rw [follow, if_neg other]
  split <;> rfl

/-- A program's write leaves all other cells alone but for the copy into the sprite table and for a
modulo that has just been taken. -/
theorem readCell_writeCell {c d : Cell} (other : d ≠ c) (apart : ¬c.Reaches d) (s : Bus)
    (a b : UInt16) (v : UInt8) :
    (s.writeCell .program a v c).readCell b d = s.readCell b d := by
  cases c with
  | cartridge =>
    cases d with
    | cartridge => exact absurd rfl other
    | _ => rfl
  | vram i =>
    cases d with
    | vram j => exact getElem_set_other _ (fun same => other (congrArg _ same)) v
    | _ => rfl
  | wram i =>
    cases d with
    | wram j => exact getElem_set_other _ (fun same => other (congrArg _ same)) v
    | _ => rfl
  | oam i =>
    cases d with
    | oam j => exact getElem_set_other _ (fun same => other (congrArg _ same)) v
    | _ => rfl
  | unusable => rfl
  | timer r =>
    cases d with
    | timer q =>
      -- The modulo is the one register that shows through another.
      refine Timer.read_write (fun same => other (congrArg _ same)) ?_ s.timer v
      rintro ⟨rfl, rfl⟩
      exact apart .counter
    | _ => rfl
  | requests =>
    cases d with
    | requests => exact absurd rfl other
    | _ => rfl
  | register r =>
    obtain ⟨registers, oam, sound, result⟩ := s.writeRegister_frame .program r v
    cases d with
    | oam i =>
      have still : r ≠ .dma := by
        rintro rfl
        exact apart (.sprites i)
      simp only [writeCell, writeRegister, readCell, follow_oam still]
      rfl
    | register q =>
      simp only [writeCell, writeRegister, readCell, follow_registers]
      exact Registers.visible_put_of_ne fun same => other (congrArg _ same)
    | _ => simp only [writeCell, result, readCell]
  | hram i =>
    cases d with
    | hram j => exact getElem_set_other _ (fun same => other (congrArg _ same)) v
    | _ => rfl
  | enables =>
    cases d with
    | enables => exact absurd rfl other
    | _ => rfl

/-- The addresses of a cartridge's RAM. -/
def InWindow (a : UInt16) : Prop := 0xA000 ≤ a ∧ a ≤ 0xBFFF

/-- The second image of work RAM lies 0x2000 above the first. -/
def Echoes (a b : UInt16) : Prop := 0xC000 ≤ a ∧ a ≤ 0xDDFF ∧ b = a + 0x2000

/-- The addresses beside its own at which a program's write can be seen. -/
inductive Touches : UInt16 → UInt16 → Prop
  | echo {a b : UInt16} : Echoes a b → Touches a b
  | original {a b : UInt16} : Echoes b a → Touches a b
  | control {a b : UInt16} : a ≤ 0x7FFF → b ≤ 0x7FFF ∨ InWindow b → Touches a b
  | window {a b : UInt16} : InWindow a → InWindow b → Touches a b
  | sprites {b : UInt16} : 0xFE00 ≤ b → b ≤ 0xFE9F → Touches 0xFF46 b
  | counter : Touches 0xFF06 0xFF05

/-- The addresses at which a program finds what it has written. -/
def Keeps (a : UInt16) : Prop :=
  0x8000 ≤ a ∧ a ≤ 0x9FFF ∨ 0xC000 ≤ a ∧ a ≤ 0xFE9F ∨ 0xFF80 ≤ a ∨ 0xFF30 ≤ a ∧ a ≤ 0xFF3F ∨
    a = 0xFF01 ∨ a = 0xFF40 ∨ a = 0xFF42 ∨ a = 0xFF43 ∨ 0xFF45 ≤ a ∧ a ≤ 0xFF4B

/-- The addresses that belong to nothing. -/
def Silent (a : UInt16) : Prop :=
  0xFEA0 ≤ a ∧ a ≤ 0xFEFF ∨ a = 0xFF03 ∨ 0xFF08 ≤ a ∧ a ≤ 0xFF0E ∨ a = 0xFF15 ∨ a = 0xFF1F ∨
    0xFF27 ≤ a ∧ a ≤ 0xFF2F ∨ 0xFF4C ≤ a ∧ a ≤ 0xFF7F

end Bus

/-- The RAM window is not where the bank of ROM is chosen. -/
theorem Cartridge.read_rom_write {a b : UInt16} (window : 0x8000 ≤ a) (rom : b < 0x8000)
    (c : Cartridge) (v : UInt8) : (c.write a v).read b = c.read b := by
  have bank (r : Fin 5) : (c.controller.writeClock r v).romBank b = c.controller.romBank b := by
    cases c.controller <;> rfl
  rw [read, if_pos rom, read, if_pos rom, write, if_neg (UInt16.not_lt.mpr window)]
  split
  · split
    · rfl
    · rfl
    · rfl
    · rename_i r _
      exact congrArg (c.rom.read · _) (bank r)
  · rfl

namespace Register

/-- Nothing of these is hidden, and a program may change all of it. -/
theorem plain_of_keeps : ∀ r : Register,
    r.val = 0x01 ∨ 0x30 ≤ r.val ∧ r.val ≤ 0x40 ∨ r.val = 0x42 ∨ r.val = 0x43 ∨
      0x45 ≤ r.val ∧ r.val ≤ 0x4B → r.openBits = 0 ∧ r.programBits = -1 := by
  decide

/-- The registers without hardware behind them have all their bits open. -/
theorem open_of_silent : ∀ r : Register,
    r.val = 0x03 ∨ 0x08 ≤ r.val ∧ r.val ≤ 0x0E ∨ r.val = 0x15 ∨ r.val = 0x1F ∨
      0x27 ≤ r.val ∧ r.val ≤ 0x2F ∨ 0x4C ≤ r.val → r.openBits = -1 := by
  decide

end Register

namespace Bus

theorem echoes_iff {a b : UInt16} :
    Echoes a b ↔ 0xC000 ≤ a.toNat ∧ a.toNat ≤ 0xDDFF ∧ b.toNat = a.toNat + 0x2000 := by
  simp only [Echoes, UInt16.le_iff_toNat_le, ← UInt16.toNat_inj, UInt16.toNat_add,
    UInt16.reduceToNat]
  omega

theorem inWindow_iff {a : UInt16} : InWindow a ↔ 0xA000 ≤ a.toNat ∧ a.toNat ≤ 0xBFFF := by
  simp only [InWindow, UInt16.le_iff_toNat_le, UInt16.reduceToNat]

/-- A write that changes another byte of the cartridge goes to a control address, or both addresses
are in the window of its memory. -/
theorem touches_of_cartridge {s : Bus} {a b : UInt16} {v : UInt8}
    (atA : Cell.At a.toNat .cartridge) (atB : Cell.At b.toNat .cartridge)
    (changed : (s.writeCell .program a v .cartridge).readCell b .cartridge ≠
      s.readCell b .cartridge) : Touches a b := by
  have places : b ≤ 0x7FFF ∨ InWindow b := by
    rw [inWindow_iff, UInt16.le_iff_toNat_le]
    exact atB.imp Nat.le_of_lt_succ fun window => ⟨window.1, Nat.le_of_lt_succ window.2⟩
  rcases atA with control | window
  · exact .control (UInt16.le_iff_toNat_le.mpr (Nat.le_of_lt_succ control)) places
  refine .window (inWindow_iff.mpr ⟨window.1, Nat.le_of_lt_succ window.2⟩) ?_
  refine places.resolve_left fun rom => changed ?_
  have above : 0x8000 ≤ a := by
    rw [UInt16.le_iff_toNat_le]
    exact Nat.le_trans (by decide) window.1
  have below : b < 0x8000 := by
    rw [UInt16.le_iff_toNat_le] at rom
    exact UInt16.lt_iff_toNat_lt.mpr (Nat.lt_succ_of_le rom)
  simp only [writeCell, readCell]
  cases s.cartridge with
  | none => rfl
  | some c => exact c.read_rom_write above below v

/-- Whatever a write changes elsewhere is within its footprint. -/
theorem touches_of_changed {s : Bus} {a b : UInt16} {v : UInt8} (other : b ≠ a)
    (changed : (s.write a v).read b ≠ s.read b) : Touches a b := by
  have apart : b.toNat ≠ a.toNat := fun same => other (UInt16.toNat_inj.mp same)
  have atA := Cell.ofAddress_at a
  have atB := Cell.ofAddress_at b
  rw [write, writeBy, read, read] at changed
  generalize Cell.ofAddress a = c at atA changed
  generalize Cell.ofAddress b = d at atB changed
  by_cases same : d = c
  · subst same
    cases d with
    | cartridge => exact touches_of_cartridge atA atB changed
    | wram i =>
      -- Two addresses of one byte are an echo of each other.
      simp only [Cell.At] at atA atB
      by_cases first : a.toNat < b.toNat
      · exact .echo (echoes_iff.mpr (by omega))
      · exact .original (echoes_iff.mpr (by omega))
    | unusable => exact absurd rfl changed
    | register r => exact absurd (atB.1.trans atA.1.symm) apart
    | _ => exact absurd (atB.trans atA.symm) apart
  by_cases reaches : c.Reaches d
  · cases reaches with
    | sprites i =>
      obtain rfl : a = 0xFF46 := UInt16.toNat_inj.mp atA.1
      simp only [Cell.At] at atB
      refine .sprites ?_ ?_ <;> simp only [UInt16.le_iff_toNat_le, UInt16.reduceToNat] <;> omega
    | counter =>
      obtain rfl : a = 0xFF06 := UInt16.toNat_inj.mp atA
      obtain rfl : b = 0xFF05 := UInt16.toNat_inj.mp atB
      exact .counter
  · exact absurd (readCell_writeCell same reaches s a b v) changed

/-- Both images of a byte of work RAM show what is written to one of them. -/
theorem read_of_echoes {a b : UInt16} (images : Echoes a b ∨ Echoes b a) (s : Bus) (v : UInt8) :
    (s.write a v).read a = v ∧ (s.write a v).read b = v := by
  simp only [echoes_iff] at images
  have atA := Cell.ofAddress_at a
  have atB := Cell.ofAddress_at b
  rw [write, writeBy, read, read]
  generalize Cell.ofAddress a = c at atA
  generalize Cell.ofAddress b = d at atB
  cases c with
  | wram i =>
    cases d with
    | wram j =>
      simp only [Cell.At] at atA atB
      obtain rfl : j = i := Fin.ext (by omega)
      have shown : (s.wram.set j v)[j] = v := Vector.getElem_set_self j.isLt
      exact ⟨shown, shown⟩
    | _ => simp only [Cell.At] at atA atB; omega
  | _ => simp only [Cell.At] at atA; omega

/-- An address that keeps bytes gives back the one that was written there. -/
theorem read_of_keeps {a : UInt16} (keeps : Keeps a) (s : Bus) (v : UInt8) :
    (s.write a v).read a = v := by
  simp only [Keeps, UInt16.le_iff_toNat_le, ← UInt16.toNat_inj, UInt16.reduceToNat] at keeps
  have atA := Cell.ofAddress_at a
  rw [write, writeBy, read]
  generalize Cell.ofAddress a = c at atA
  cases c with
  | vram i => exact Vector.getElem_set_self i.isLt
  | wram i => exact Vector.getElem_set_self i.isLt
  | oam i => exact Vector.getElem_set_self i.isLt
  | hram i => exact Vector.getElem_set_self i.isLt
  | enables => rfl
  | register r =>
    simp only [Cell.At] at atA
    obtain ⟨closed, free⟩ := r.plain_of_keeps (by omega)
    simp only [writeCell, writeRegister, readCell, follow_registers, store, Registers.visible,
      Registers.stored_put_self, Registers.programmed_of_free free, closed, UInt8.or_zero]
  | timer r =>
    have bounds := atA.timer_bounds
    omega
  | _ => simp only [Cell.At] at atA; omega

theorem read_of_silent {a : UInt16} (silent : Silent a) (s : Bus) : s.read a = 0xFF := by
  simp only [Silent, UInt16.le_iff_toNat_le, ← UInt16.toNat_inj, UInt16.reduceToNat] at silent
  have atA := Cell.ofAddress_at a
  rw [read]
  generalize Cell.ofAddress a = c at atA
  cases c with
  | unusable => rfl
  | register r =>
    simp only [Cell.At] at atA
    rw [readCell, Registers.visible, r.open_of_silent (by omega)]
    exact UInt8.or_neg_one
  | timer r =>
    have bounds := atA.timer_bounds
    omega
  | _ => simp only [Cell.At] at atA; omega

/-- The bits of a register that the game cannot reach survive any list of writes. -/
theorem writeAll_fixed (s : Bus) (writes : List (UInt16 × UInt8)) (r : Register) :
    (s.writeAll writes).registers.fixed r = s.registers.fixed r := by
  induction writes generalizing s with
  | nil => rfl
  | cons w rest ih => rw [writeAll_cons, ih, write_fixed]

/-- Bits that belong to the hardware and can be read stay as they are, whatever a program writes. -/
theorem read_writeAll_fixed {a : UInt16} {r : Register} {bits : UInt8}
    (cell : Cell.ofAddress a = .register r) (closed : r.openBits &&& bits = 0)
    (hardware : ~~~r.programBits &&& bits = bits) (s : Bus) (writes : List (UInt16 × UInt8)) :
    (s.writeAll writes).read a &&& bits = s.read a &&& bits := by
  have seen (s : Bus) : s.read a &&& bits = s.registers.fixed r &&& bits := by
    rw [read_register cell, Registers.visible, or_and_distrib, closed, UInt8.or_zero,
      Registers.fixed, UInt8.and_assoc, hardware]
  rw [seen, seen, writeAll_fixed]

/-- Where a program's write can be seen, and where it is seen as it was written. However much a
program writes, the line, the mode and the coincidence of the LCD, the lines of the joypad and the
channels that sound stay as the hardware has set them. -/
theorem write_footprint (s : Bus) (a : UInt16) (v : UInt8) :
    (∀ b ≠ a, (s.write a v).read b ≠ s.read b → Touches a b) ∧
    (∀ b, Echoes a b ∨ Echoes b a → (s.write a v).read a = v ∧ (s.write a v).read b = v) ∧
    (Keeps a → (s.write a v).read a = v) ∧
    (Silent a → (s.write a v).read a = 0xFF) ∧
    ∀ writes, (s.writeAll writes).read 0xFF44 = s.read 0xFF44 ∧
      (s.writeAll writes).read 0xFF41 &&& 0x07 = s.read 0xFF41 &&& 0x07 ∧
      (s.writeAll writes).read 0xFF00 &&& 0x0F = s.read 0xFF00 &&& 0x0F ∧
      (s.writeAll writes).read 0xFF26 &&& 0x0F = s.read 0xFF26 &&& 0x0F := by
  refine ⟨fun b other changed => touches_of_changed other changed,
    fun b images => read_of_echoes images s v, fun keeps => read_of_keeps keeps s v,
    fun silent => read_of_silent silent _, fun writes => ⟨?_, ?_, ?_, ?_⟩⟩
  · have line : (s.writeAll writes).read 0xFF44 &&& -1 = s.read 0xFF44 &&& -1 :=
      read_writeAll_fixed (r := .ly) (by decide) (by decide) (by decide) s writes
    rwa [UInt8.and_neg_one, UInt8.and_neg_one] at line
  · exact read_writeAll_fixed (r := .stat) (by decide) (by decide) (by decide) s writes
  · exact read_writeAll_fixed (r := .p1) (by decide) (by decide) (by decide) s writes
  · exact read_writeAll_fixed (r := .nr52) (by decide) (by decide) (by decide) s writes

/-- The copy into the sprite table shows there, and its page can be read back. -/
theorem write_footprint_sprites :
    let s := (Bus.boot .standard none).write 0xC000 0x5A
    let t := s.write 0xFF46 0xC0
    Echoes 0xC000 0xE000 ∧ s.read 0xE000 = 0x5A ∧ t.read 0xFE00 ≠ s.read 0xFE00 ∧
      Touches 0xFF46 0xFE00 ∧ Keeps 0xFF46 ∧ t.read 0xFF46 = 0xC0 := by
  intro s t
  obtain ⟨-, images, -⟩ := write_footprint (.boot .standard none) 0xC000 0x5A
  obtain ⟨touches, -, kept, -⟩ := write_footprint s 0xFF46 0xC0
  have image : Echoes 0xC000 0xE000 := by unfold Echoes; decide
  have keeps : Keeps 0xFF46 := by unfold Keeps; decide
  have copied : t.read 0xFE00 ≠ s.read 0xFE00 := by decide +kernel
  exact ⟨image, (images _ (Or.inl image)).2, copied, touches _ (by decide) copied, keeps, kept keeps⟩

end Bus

end DotMatrix
