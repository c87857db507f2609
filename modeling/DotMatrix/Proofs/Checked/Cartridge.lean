import DotMatrix.Proofs.Cartridge.Rom
import DotMatrix.Proofs.Checked.Basic

namespace DotMatrix

open Checked

namespace Banks

/-- The number of banks, one more than the whole ones if bytes are left. -/
def checkedCount (s : Banks) : Checked Nat := do
  let whole ← quotient s.data.size s.bankSize
  if 0 < (← remainder s.data.size s.bankSize) then plus 64 whole 1 else return whole

/-- The place of a byte, if there is any. -/
def checkedPlace (s : Banks) (bank offset : Nat) : Checked (Option Nat) := do
  if s.data.size = 0 then return none
  let start ← times 64 (← remainder bank (← s.checkedCount)) s.bankSize
  let place ← plus 64 start (← remainder offset s.bankSize)
  return some (← remainder place s.data.size)

/-- A read of the place, if there is one. -/
def checkedRead (s : Banks) (bank offset : Nat) : Checked UInt8 := do
  match ← s.checkedPlace bank offset with
  | some i => return s.data.getD i 0xFF
  | none => return 0xFF

/-- A write to the place, if there is one. -/
def checkedWrite (s : Banks) (bank offset : Nat) (v : UInt8) : Checked Banks := do
  match ← s.checkedPlace bank offset with
  | some i => return { s with data := s.data.setIfInBounds i v }
  | none => return s

/-- There are bytes in a bank, and a whole bank past the end still has numbers of 64 bits. -/
structure Sized (s : Banks) : Prop where
  wide : 0 < s.bankSize
  fits : s.data.size + s.bankSize < 2 ^ 64

variable {s : Banks}

theorem count_eq (wide : 0 < s.bankSize) :
    s.count = if 0 < s.data.size % s.bankSize then s.data.size / s.bankSize + 1
      else s.data.size / s.bankSize := by
  have parts := Nat.div_add_mod' s.data.size s.bankSize
  have below := Nat.mod_lt s.data.size wide
  generalize s.data.size / s.bankSize = q at *
  have next : (q + 1) * s.bankSize = q * s.bankSize + s.bankSize := Nat.succ_mul _ _
  have second : (q + 1 + 1) * s.bankSize = (q + 1) * s.bankSize + s.bankSize := Nat.succ_mul _ _
  rw [count]
  split_ifs
  · exact Nat.div_eq_of_lt_le (by omega) (by omega)
  · exact Nat.div_eq_of_lt_le (by omega) (by omega)

theorem Sized.checkedCount (sized : s.Sized) : s.checkedCount = .ok s.count := by
  have small : s.data.size / s.bankSize + 1 < 2 ^ 64 := by
    have bound := Nat.div_le_self s.data.size s.bankSize
    have wide := sized.wide
    have fits := sized.fits
    omega
  rw [Banks.checkedCount, quotient_ok sized.wide, ok_bind, remainder_ok sized.wide, ok_bind,
    count_eq sized.wide, plus_ok small]
  split_ifs <;> rfl

/-- The start of a bank and its length are far below the end of the numbers. -/
theorem Sized.start_lt (sized : s.Sized) (nonempty : 0 < s.data.size) (bank : Nat) :
    bank % s.count * s.bankSize + s.bankSize < 2 ^ 64 ∧ 0 < s.count := by
  have start := start_lt_size nonempty sized.wide bank
  have fits := sized.fits
  exact ⟨by omega, count_pos nonempty sized.wide⟩

/-- No step on the way to a place overflows or divides by zero. -/
theorem Sized.checkedPlace (sized : s.Sized) (bank offset : Nat) :
    s.checkedPlace bank offset = .ok ((s.place? bank offset).map Fin.val) := by
  have wide := sized.wide
  have fits := sized.fits
  unfold Banks.checkedPlace
  by_cases empty : s.data.size = 0
  · have nowhere : ¬0 < s.data.size := Nat.not_lt.mpr (Nat.le_of_eq empty)
    rw [if_pos empty, place?, dif_neg nowhere]
    rfl
  have nonempty := Nat.pos_of_ne_zero empty
  obtain ⟨room, positive⟩ := sized.start_lt nonempty bank
  have inBank := Nat.mod_lt offset wide
  rw [if_neg empty, map_place? nonempty, index, sized.checkedCount, ok_bind,
    remainder_ok positive, ok_bind, times_ok (by omega), ok_bind,
    remainder_ok wide, ok_bind, plus_ok (by omega), ok_bind, remainder_ok nonempty]
  rfl

theorem Sized.checkedRead (sized : s.Sized) (bank offset : Nat) :
    s.checkedRead bank offset = .ok (s.read bank offset) := by
  rw [Banks.checkedRead, sized.checkedPlace, ok_bind, read]
  cases s.place? bank offset with
  | none => rfl
  | some i => simp [Array.getD]

theorem Sized.checkedWrite (sized : s.Sized) (bank offset : Nat) (v : UInt8) :
    s.checkedWrite bank offset v = .ok (s.write bank offset v) := by
  rw [Banks.checkedWrite, sized.checkedPlace, ok_bind, write]
  cases s.place? bank offset with
  | none => rfl
  | some i => simp [Array.setIfInBounds]

end Banks

/-- The selection names one of five registers from 8 on. -/
def Mbc3.checkedWindow (m : Mbc3) : Checked RamWindow := do
  if !m.ramOpen then return .closed
  if 0x08 ≤ m.select ∧ m.select ≤ 0x0C then
    return .clock (← place 5 (← minus m.select.toNat 8))
  if m.select ≤ 0x03 then return .bank m.select.toNat
  return .closed

/-- What stands in the RAM window. A clock register is counted from the first. -/
def Controller.checkedWindow : Controller → Checked RamWindow
  | mbc3 m => m.checkedWindow
  | c => return c.ramWindow

/-- A clock register is selected only by the numbers of the five. -/
theorem Mbc3.checkedWindow_eq (m : Mbc3) : m.checkedWindow = .ok m.ramWindow := by
  unfold checkedWindow ramWindow
  have lower : (0x08 : UInt8) ≤ m.select ↔ 8 ≤ m.select.toNat := UInt8.le_iff_toNat_le
  have upper : m.select ≤ 0x0C ↔ m.select.toNat < 13 := UInt8.le_iff_toNat_le.trans Nat.lt_succ_iff.symm
  have bank : m.select ≤ 0x03 ↔ m.select.toNat ≤ 3 := UInt8.le_iff_toNat_le
  cases m.ramOpen with
  | false => rfl
  | true =>
    simp only [Bool.not_true, Bool.false_eq_true, if_false, if_true, lower, upper, bank]
    by_cases low : m.select.toNat ≤ 3
    · rw [if_neg (by omega), if_pos low, if_pos low]
      rfl
    rw [if_neg low, if_neg low]
    by_cases clock : 8 ≤ m.select.toNat ∧ m.select.toNat < 13
    · rw [if_pos clock, dif_pos clock, minus_ok clock.1, ok_bind, place_ok (by omega)]
      rfl
    · rw [if_neg clock, dif_neg clock]
      rfl

theorem Controller.checkedWindow_eq (c : Controller) : c.checkedWindow = .ok c.ramWindow := by
  cases c with
  | mbc3 m => exact m.checkedWindow_eq
  | _ => rfl

namespace Cartridge

/-- A read from the cartridge. -/
def checkedRead (c : Cartridge) (a : UInt16) : Checked UInt8 :=
  if a < 0x8000 then c.rom.checkedRead (c.controller.romBank a) (a.toNat % 0x4000)
  else if 0xA000 ≤ a ∧ a < 0xC000 then do
    match ← c.controller.checkedWindow with
    | .closed => return 0xFF
    | .bank n => c.ram.checkedRead n (a.toNat % 0x2000)
    | .cells => return 0xF0 ||| (← c.ram.checkedRead 0 (a.toNat % 0x200))
    | .clock r => return c.controller.readClock r
  else return 0xFF

/-- A write to the cartridge. -/
def checkedWrite (c : Cartridge) (a : UInt16) (v : UInt8) : Checked Cartridge :=
  if a < 0x8000 then return { c with controller := c.controller.write a v }
  else if 0xA000 ≤ a ∧ a < 0xC000 then do
    match ← c.controller.checkedWindow with
    | .closed => return c
    | .bank n => return { c with ram := ← c.ram.checkedWrite n (a.toNat % 0x2000) v }
    | .cells => return { c with ram := ← c.ram.checkedWrite 0 (a.toNat % 0x200) (v &&& 0x0F) }
    | .clock r => return { c with controller := c.controller.writeClock r v }
  else return c

/-- The sizes of both memories are within what their index arithmetic can bear. -/
structure Sized (c : Cartridge) : Prop where
  rom : c.rom.Sized
  ram : c.ram.Sized

variable {c d : Cartridge} {a : UInt16} {v : UInt8}

theorem Sized.checkedRead (sized : c.Sized) : c.checkedRead a = .ok (c.read a) := by
  unfold Cartridge.checkedRead read
  rw [c.controller.checkedWindow_eq, ok_bind]
  split_ifs
  · exact sized.rom.checkedRead _ _
  · cases c.controller.ramWindow with
    | bank n => exact sized.ram.checkedRead _ _
    | cells =>
      dsimp only
      rw [sized.ram.checkedRead]
      rfl
    | _ => rfl
  · rfl

theorem Sized.checkedWrite (sized : c.Sized) : c.checkedWrite a v = .ok (c.write a v) := by
  unfold Cartridge.checkedWrite write
  rw [c.controller.checkedWindow_eq, ok_bind]
  split_ifs
  · rfl
  · cases c.controller.ramWindow with
    | bank n | cells =>
      dsimp only
      rw [sized.ram.checkedWrite]
      rfl
    | _ => rfl
  · rfl

theorem SameMake.sized (same : SameMake c d) (sized : c.Sized) : d.Sized where
  rom := same.rom ▸ sized.rom
  ram := ⟨same.ramBankSize ▸ sized.ram.wide, by rw [same.ramSize, same.ramBankSize]; exact sized.ram.fits⟩

theorem Sized.write (sized : c.Sized) : (c.write a v).Sized := (sameMake_write c a v).sized sized

theorem ramSize_le {h : Header} {size : Nat} (known : h.ramSize = .ok size) : size ≤ 0x20000 := by
  unfold Header.ramSize at known
  split at known
  · cases known
    decide
  · split at known <;> cases known <;> decide

theorem romSize_le {h : Header} {size : Nat} (known : h.romSize = .ok size) : size ≤ 0x800000 := by
  unfold Header.romSize at known
  dsimp only at known
  split_ifs at known with small
  · cases known
    have factor : 2 ^ h.romCode.toNat ≤ 2 ^ 8 := Nat.pow_le_pow_right (by decide) small
    rw [Nat.shiftLeft_eq]
    omega
  all_goals
    cases known
    decide

/-- An accepted image has sizes that its index arithmetic can bear. -/
theorem Accepts.sized {image : Array UInt8} (accepts : Accepts image c) : c.Sized where
  rom := by
    have size := romSize_le accepts.romSize
    have bank := accepts.bankSize
    exact ⟨by rw [bank]; decide, by omega⟩
  ram := by
    have size := ramSize_le accepts.ramSize
    have bank : c.ram.bankSize = ramBankSize c.controller.kind := congrArg Banks.bankSize accepts.ram
    have bounds (k : ControllerKind) : 0 < ramBankSize k ∧ ramBankSize k ≤ 0x2000 := by
      cases k <;> decide
    obtain ⟨wide, narrow⟩ := bounds c.controller.kind
    exact ⟨by omega, by omega⟩

end Cartridge

end DotMatrix
