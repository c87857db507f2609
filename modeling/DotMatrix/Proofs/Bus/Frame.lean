import DotMatrix.Proofs.Bus.Access
import DotMatrix.Proofs.Cartridge.Rom
import Mathlib.Tactic.SplitIfs

namespace DotMatrix

theorem Cell.ofAddress_eq_requests {a : UInt16} : Cell.ofAddress a = .requests ↔ a = 0xFF0F := by
  constructor
  · intro same
    unfold Cell.ofAddress at same
    dsimp only at same
    split_ifs at same with rom vram ram wram oam unusable io requests
    · exact UInt16.toNat_inj.mp requests
    · split at same <;> cases same
  · rintro rfl
    decide

/-- The lower half of the address space belongs to the cartridge. -/
theorem Cell.ofAddress_of_lt {a : UInt16} (low : a < 0x8000) : Cell.ofAddress a = .cartridge :=
  if_pos (UInt16.lt_iff_toNat_lt.mp low)

namespace Bus

theorem read_of_lt {s : Bus} {c : Cartridge} {a : UInt16} (inserted : s.cartridge = some c)
    (low : a < 0x8000) : s.read a = c.read a := by
  simp only [read, Cell.ofAddress_of_lt low, readCell, inserted]

/-- The copy leaves all but the sprite table alone. -/
theorem copySprites_frame (source : UInt16) (n : Nat) (s : Bus) :
    ∃ oam, copySprites source n s = { s with oam := oam } := by
  induction n with
  | zero => exact ⟨s.oam, rfl⟩
  | succ n ih =>
    obtain ⟨oam, before⟩ := ih
    simp only [copySprites, before]
    split
    · exact ⟨_, rfl⟩
    · exact ⟨oam, rfl⟩

/-- What a write to a register can reach. -/
theorem writeRegister_frame (s : Bus) (w : Writer) (r : Register) (v : UInt8) :
    ∃ registers oam sound,
      s.writeRegister w r v = { s with registers := registers, oam := oam, sound := sound } := by
  cases w with
  | hardware => exact ⟨_, s.oam, s.sound, rfl⟩
  | program =>
    simp only [writeRegister, follow]
    split
    · obtain ⟨oam, copied⟩ := copySprites_frame (word v 0) 0xA0 (s.store r (s.registers.programmed r v))
      exact ⟨_, oam, s.sound, copied⟩
    · split
      · exact ⟨_, s.oam, s.sound, rfl⟩
      · exact ⟨_, s.oam, _, rfl⟩

theorem writeTimer_frame (s : Bus) (w : Writer) (r : Timer.Register) (v : UInt8) :
    ∃ timer, s.writeTimer w r v = { s with timer := timer } := by
  unfold writeTimer
  split <;> exact ⟨_, rfl⟩

theorem writeBy_requested (s : Bus) (w : Writer) (a : UInt16) (v : UInt8) :
    (s.writeBy w a v).requested = if a = 0xFF0F then .ofByte v else s.requested := by
  by_cases here : a = 0xFF0F
  · rw [if_pos here, writeBy, Cell.ofAddress_eq_requests.mpr here]
    rfl
  have other := mt Cell.ofAddress_eq_requests.mp here
  rw [if_neg here]
  unfold writeBy
  generalize Cell.ofAddress a = cell at other
  cases cell with
  | requests => exact absurd rfl other
  | timer r =>
    obtain ⟨timer, result⟩ := s.writeTimer_frame w r v
    simp only [writeCell, result]
  | register r =>
    obtain ⟨registers, oam, sound, result⟩ := s.writeRegister_frame w r v
    simp only [writeCell, result]
  | _ => rfl

/-- A write reaches the cartridge as a write or not at all. -/
theorem writeBy_cartridge (s : Bus) (w : Writer) (a : UInt16) (v : UInt8) :
    (s.writeBy w a v).cartridge = s.cartridge ∨
      (s.writeBy w a v).cartridge = s.cartridge.map (·.write a v) := by
  unfold writeBy
  generalize Cell.ofAddress a = cell
  cases cell with
  | cartridge => exact Or.inr rfl
  | timer r =>
    obtain ⟨timer, result⟩ := s.writeTimer_frame w r v
    simp only [writeCell, result, true_or]
  | register r =>
    obtain ⟨registers, oam, sound, result⟩ := s.writeRegister_frame w r v
    simp only [writeCell, result, true_or]
  | _ => exact Or.inl rfl

theorem Access.cartridge {s t : Bus} (access : s.Access t) :
    t.cartridge = s.cartridge ∨ ∃ a v, t.cartridge = s.cartridge.map (·.write a v) := by
  cases access with
  | write w a v => exact (writeBy_cartridge s w a v).imp id fun written => ⟨a, v, written⟩
  | time n =>
    unfold stepTimer
    dsimp only
    split <;> exact Or.inl rfl
  | _ => exact Or.inl rfl

/-- No access changes what a cartridge was made of. -/
theorem Access.sameMake {c : Cartridge} {s t : Bus} (access : s.Access t)
    (before : ∃ d, s.cartridge = some d ∧ c.SameMake d) :
    ∃ d, t.cartridge = some d ∧ c.SameMake d := by
  obtain ⟨d, inserted, make⟩ := before
  rcases access.cartridge with same | ⟨a, v, written⟩
  · exact ⟨d, same.trans inserted, make⟩
  · rw [inserted] at written
    exact ⟨d.write a v, written, make.trans (d.sameMake_write a v)⟩

/-- Writes elsewhere leave the requests alone. -/
theorem writeAll_requested {s : Bus} {writes : List (UInt16 × UInt8)}
    (elsewhere : ∀ w ∈ writes, w.1 ≠ 0xFF0F) : (s.writeAll writes).requested = s.requested := by
  induction writes generalizing s with
  | nil => rfl
  | cons w rest ih =>
    rw [writeAll_cons, ih fun w member => elsewhere w (List.mem_cons_of_mem _ member), write,
      writeBy_requested, if_neg (elsewhere w List.mem_cons_self)]

end Bus

end DotMatrix
