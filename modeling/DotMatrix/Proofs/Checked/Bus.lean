import DotMatrix.Proofs.Bus.Frame
import DotMatrix.Proofs.Checked.Cartridge
import DotMatrix.Proofs.Checked.Timer

namespace DotMatrix

open Checked

namespace Cell

/-- A place in one of the two halves of work RAM. -/
def inHalf (upper : Bool) (i : Fin 0x1000) : Cell :=
  .wram ⟨(if upper then 0x1000 else 0) + i.val, by have := i.isLt; split <;> omega⟩

/-- Work RAM and its echo, by the distance from the start. -/
def checkedWorkRam (n : Nat) : Checked Cell := do
  if n < 0xD000 then return inHalf false (← offset n 0xC000 0x1000)
  else if n < 0xE000 then return inHalf true (← offset n 0xD000 0x1000)
  else if n < 0xF000 then return inHalf false (← offset n 0xE000 0x1000)
  else return inHalf true (← offset n 0xF000 0x1000)

/-- The cell of an address, each one by the distance from the start of its region. -/
def checkedAddress (a : UInt16) : Checked Cell := do
  let n := a.toNat
  if n < 0x8000 then return .cartridge
  else if n < 0xA000 then return .vram (← offset n 0x8000 0x2000)
  else if n < 0xC000 then return .cartridge
  else if n < 0xFE00 then checkedWorkRam n
  else if n < 0xFEA0 then return .oam (← offset n 0xFE00 0xA0)
  else if n < 0xFF00 then return .unusable
  else if n < 0xFF80 then
    match Timer.Register.at? a with
    | some r => return .timer r
    | none =>
      if n = 0xFF0F then return .requests else return .register (← offset n 0xFF00 0x80)
  else if n < 0xFFFF then return .hram (← offset n 0xFF80 0x7F)
  else return .enables

theorem checkedWorkRam_eq {n : Nat} (lower : 0xC000 ≤ n) (upper : n < 0xFE00) :
    checkedWorkRam n = .ok (.wram ⟨n % 0x2000, Nat.mod_lt _ (Nat.succ_pos _)⟩) := by
  have half {top : Bool} {i : Fin 0x1000} (same : (if top then 0x1000 else 0) + i.val = n % 0x2000) :
      inHalf top i = .wram ⟨n % 0x2000, Nat.mod_lt _ (Nat.succ_pos _)⟩ :=
    congrArg Cell.wram (Fin.ext same)
  unfold checkedWorkRam
  split_ifs with first second third
  · rw [offset_ok lower (by omega), ok_bind, pure_eq, half]
    simp only [Bool.false_eq_true, if_false]
    omega
  · rw [offset_ok (Nat.not_lt.mp first) (by omega), ok_bind, pure_eq, half]
    simp only [if_true]
    omega
  · rw [offset_ok (Nat.not_lt.mp second) (by omega), ok_bind, pure_eq, half]
    simp only [Bool.false_eq_true, if_false]
    omega
  · rw [offset_ok (Nat.not_lt.mp third) (by omega), ok_bind, pure_eq, half]
    simp only [if_true]
    omega

/-- No address names a place that does not exist. -/
theorem checkedAddress_eq (a : UInt16) : checkedAddress a = .ok (ofAddress a) := by
  have bound := a.toNat_lt
  unfold checkedAddress ofAddress
  dsimp only
  by_cases rom : a.toNat < 0x8000
  · rw [if_pos rom, if_pos rom, pure_eq]
  rw [if_neg rom, if_neg rom]
  by_cases vram : a.toNat < 0xA000
  · rw [if_pos vram, dif_pos vram, offset_ok (Nat.not_lt.mp rom), ok_bind, pure_eq]
  rw [if_neg vram, dif_neg vram]
  by_cases ram : a.toNat < 0xC000
  · rw [if_pos ram, if_pos ram, pure_eq]
  rw [if_neg ram, if_neg ram]
  by_cases wram : a.toNat < 0xFE00
  · rw [if_pos wram, if_pos wram, checkedWorkRam_eq (Nat.not_lt.mp ram) wram]
  rw [if_neg wram, if_neg wram]
  by_cases oam : a.toNat < 0xFEA0
  · rw [if_pos oam, dif_pos oam, offset_ok (Nat.not_lt.mp wram), ok_bind, pure_eq]
  rw [if_neg oam, dif_neg oam]
  by_cases unusable : a.toNat < 0xFF00
  · rw [if_pos unusable, if_pos unusable, pure_eq]
  rw [if_neg unusable, if_neg unusable]
  by_cases io : a.toNat < 0xFF80
  · rw [if_pos io, dif_pos io]
    cases Timer.Register.at? a with
    | some r => rfl
    | none =>
      dsimp only
      split_ifs
      · rfl
      · rw [offset_ok (Nat.not_lt.mp unusable), ok_bind, pure_eq]
  rw [if_neg io, dif_neg io]
  by_cases hram : a.toNat < 0xFFFF
  · rw [if_pos hram, dif_pos hram, offset_ok (Nat.not_lt.mp io), ok_bind, pure_eq]
  · rw [if_neg hram, dif_neg hram, pure_eq]

end Cell

namespace Registers

/-- The byte at an address of the topmost page. -/
def checkedAt (file : Registers) (n : Nat) : Checked UInt8 := do
  return file.stored (← offset n 0xFF00 0x80)

/-- The unconnected bits of the sound registers stand in a table. -/
def checkedVisible (file : Registers) (r : Register) : Checked UInt8 := do
  if 0x10 ≤ r.val ∧ r.val ≤ 0x26 then
    return file.stored r ||| Register.soundOpenBits.get (← offset r.val 0x10 0x17)
  else return file.visible r

theorem checkedVisible_eq (file : Registers) (r : Register) :
    file.checkedVisible r = .ok (file.visible r) := by
  unfold checkedVisible
  split_ifs with sound
  · have other (s : Register) (outside : s.val < 0x10) : r ≠ s := fun same => by
      have := congrArg Fin.val same
      omega
    rw [offset_ok sound.1 (by omega), ok_bind, pure_eq, visible, Register.openBits,
      if_neg (other .p1 (by decide)), if_neg (other .sb (by decide)),
      if_neg (other .sc (by decide)), dif_pos sound]
    rfl
  · rfl

end Registers

namespace Sound

/-- The channel of a register and its place in the channel. -/
def Channel.checkedAt? (r : Register) : Checked (Option (Channel × Nat)) := do
  if 0x10 ≤ r.val ∧ r.val ≤ 0x14 then return some (square1, ← minus r.val 0x10)
  else if 0x15 ≤ r.val ∧ r.val ≤ 0x19 then return some (square2, ← minus r.val 0x15)
  else if 0x1A ≤ r.val ∧ r.val ≤ 0x1E then return some (wave, ← minus r.val 0x1A)
  else if 0x1F ≤ r.val ∧ r.val ≤ 0x23 then return some (noise, ← minus r.val 0x1F)
  else return none

/-- The period of the channel that has register `r` at some place. -/
def checkedPeriod (file : Registers) (r : Register) (place : Nat) : Checked UInt16 := do
  let base ← minus (0xFF00 + r.val) place
  let lower ← file.checkedAt (← plus 16 base 3)
  let upper ← file.checkedAt (← plus 16 base 4)
  return word (upper &&& 0x07) lower

/-- What a write to a register of a channel tells the outside. -/
def Channel.checkedEvents (c : Channel) (file : Registers) (r : Register) (place : Nat) (v : UInt8) :
    Checked (List Event) :=
  match place with
  | 3 =>
    if c = .noise then return [.frequency c v.toUInt16]
    else do return [.frequency c (← checkedPeriod file r 3)]
  | 4 => do
    let frequency ←
      if c = .noise then pure [] else do pure [Event.frequency c (← checkedPeriod file r 4)]
    return frequency ++ (if 0x80 ≤ v then [.trigger c] else [])
  | place => return c.events file place v

def checkedEvents (file : Registers) (r : Register) (v : UInt8) : Checked (List Event) := do
  if r = .nr52 then return [.power (0x80 ≤ v)]
  else if r = .nr10 then return [.sweep v]
  else match ← Channel.checkedAt? r with
    | some (c, place) => c.checkedEvents file r place v
    | none => return []

theorem Channel.checkedAt?_eq (r : Register) : checkedAt? r = .ok (at? r) := by
  revert r
  decide

theorem Channel.base_of_at? {r : Register} {c : Channel} {place : Nat}
    (found : at? r = some (c, place)) : r.val = c.base.val + place ∧ c.base.val + 4 < 0x80 := by
  have all : ∀ r : Register, ((at? r).all fun p =>
      r.val == p.1.base.val + p.2 && decide (p.1.base.val + 4 < 0x80)) = true := by decide
  have here := all r
  rwa [found, Option.all_some, Bool.and_eq_true, beq_iff_eq, decide_eq_true_iff] at here

/-- The period of a channel joins two registers that are both there. -/
theorem checkedPeriod_eq {r : Register} {c : Channel} {place : Nat}
    (found : Channel.at? r = some (c, place)) (file : Registers) :
    checkedPeriod file r place = .ok (c.period file) := by
  obtain ⟨sum, room⟩ := Channel.base_of_at? found
  have base : 0xFF00 + r.val - place = 0xFF00 + c.base.val := by omega
  have register {k : Nat} (inside : c.base.val + k < 0x80) :
      file.checkedAt (0xFF00 + c.base.val + k) = .ok (file.stored ⟨c.base.val + k, inside⟩) := by
    have place : 0xFF00 + c.base.val + k - 0xFF00 = c.base.val + k := by omega
    rw [Registers.checkedAt, offset_ok (by omega) (by omega), ok_bind, pure_eq]
    simp only [place]
  rw [checkedPeriod, minus_ok (by omega), ok_bind, base, plus_ok (by omega), ok_bind,
    register (by omega), ok_bind, plus_ok (by omega), ok_bind, register room]
  cases c <;> rfl

theorem checkedEvents_eq (file : Registers) (r : Register) (v : UInt8) :
    checkedEvents file r v = .ok (events file r v) := by
  unfold checkedEvents events
  rw [Channel.checkedAt?_eq, ok_bind]
  split_ifs
  · rfl
  · rfl
  cases found : Channel.at? r with
  | none => rfl
  | some both =>
    obtain ⟨c, place⟩ := both
    have period := checkedPeriod_eq found file
    dsimp only
    unfold Channel.checkedEvents
    split
    · rw [period]
      simp only [Channel.events]
      split_ifs <;> rfl
    · rw [period]
      simp only [Channel.events]
      split_ifs <;> rfl
    · rfl

end Sound

namespace Bus

def checkedReadCell (s : Bus) (a : UInt16) : Cell → Checked UInt8
  | .cartridge => match s.cartridge with
    | some c => c.checkedRead a
    | none => return 0xFF
  | .register r => s.registers.checkedVisible r
  | cell => return s.readCell a cell

def checkedRead (s : Bus) (a : UInt16) : Checked UInt8 := do
  s.checkedReadCell a (← Cell.checkedAddress a)

/-- The copy of the sprites, byte by byte. -/
def checkedCopySprites (source : UInt16) : Nat → Bus → Checked Bus
  | 0, s => return s
  | n + 1, s => do
    let s ← checkedCopySprites source n s
    let v ← s.checkedRead (source + UInt16.ofNat n)
    return { s with oam := ← put s.oam n v }

/-- What a stored byte sets off. -/
def checkedFollow (s : Bus) (r : Register) (v : UInt8) : Checked Bus := do
  if r = .dma then checkedCopySprites (word v 0) 0xA0 s
  else match ← Sound.checkedEvents s.registers r v with
    | [] => return s
    | events => return { s with sound := s.sound ++ events }

def checkedWriteCell (s : Bus) (w : Writer) (a : UInt16) (v : UInt8) : Cell → Checked Bus
  | .cartridge => match s.cartridge with
    | some c => do return { s with cartridge := some (← c.checkedWrite a v) }
    | none => return s
  | .timer r => match w, r with
    | .hardware, .divider => return s.writeTimer w r v
    | _, _ => do return { s with timer := ← s.timer.checkedWrite r v }
  | .register r => match w with
    | .program => (s.store r (s.registers.programmed r v)).checkedFollow r v
    | .hardware => return s.store r v
  | cell => return s.writeCell w a v cell

def checkedWriteBy (s : Bus) (w : Writer) (a : UInt16) (v : UInt8) : Checked Bus := do
  s.checkedWriteCell w a v (← Cell.checkedAddress a)

def checkedWrite (s : Bus) (a : UInt16) (v : UInt8) : Checked Bus := s.checkedWriteBy .program a v

def checkedStepTimer (n : Nat) (s : Bus) : Checked Bus := do
  let timer ← s.timer.checkedStep n
  let rang := timer.interrupt
  let s := { s with timer := { timer with interrupt := false } }
  return if rang then s.request .timer else s

/-- The cartridge, if there is one, has banks whose bytes can be numbered. -/
def Sized (s : Bus) : Prop := ∀ c, s.cartridge = some c → c.Sized

variable {s t : Bus} {w : Writer} {a : UInt16} {v : UInt8}

theorem Access.sized (access : s.Access t) (sized : s.Sized) : t.Sized := by
  intro c inserted
  rcases access.cartridge with same | ⟨a, v, written⟩
  · exact sized c (same.symm.trans inserted)
  · rw [written, Option.map_eq_some_iff] at inserted
    obtain ⟨d, before, rfl⟩ := inserted
    exact (sized d before).write

theorem Leads.sized (leads : s.Leads t) (sized : s.Sized) : t.Sized :=
  leads.keeps (fun access before => access.sized before) sized

theorem Sized.write (sized : s.Sized) : (s.write a v).Sized :=
  Access.sized (.write .program a v) sized

/-- A read does not crash, since every cell has its place. -/
theorem Sized.checkedRead (sized : s.Sized) : s.checkedRead a = .ok (s.read a) := by
  rw [Bus.checkedRead, Cell.checkedAddress_eq, ok_bind, read]
  cases Cell.ofAddress a with
  | cartridge =>
    unfold checkedReadCell readCell
    cases inserted : s.cartridge with
    | none => rfl
    | some c => exact (sized c inserted).checkedRead
  | register r => exact s.registers.checkedVisible_eq r
  | _ => rfl

theorem Sized.checkedCopySprites (sized : s.Sized) (source : UInt16) {n : Nat} (few : n ≤ 0xA0) :
    checkedCopySprites source n s = .ok (copySprites source n s) := by
  induction n with
  | zero => rfl
  | succ n ih =>
    obtain ⟨oam, copied⟩ := copySprites_frame source n s
    have again : (copySprites source n s).Sized := by
      rw [copied]
      exact sized
    rw [Bus.checkedCopySprites, ih (by omega), ok_bind, again.checkedRead, ok_bind,
      put_ok _ _ (by omega), ok_bind, copySprites]
    simp only [dif_pos (show n < 0xA0 by omega)]
    rfl

theorem Sized.checkedFollow (sized : s.Sized) (r : Register) :
    s.checkedFollow r v = .ok (s.follow r v) := by
  unfold Bus.checkedFollow follow
  rw [Sound.checkedEvents_eq, ok_bind]
  split_ifs
  · exact sized.checkedCopySprites _ (by decide)
  · cases Sound.events s.registers r v <;> rfl

/-- A write does not crash, whoever makes it. -/
theorem Sized.checkedWriteBy (sized : s.Sized) :
    s.checkedWriteBy w a v = .ok (s.writeBy w a v) := by
  rw [Bus.checkedWriteBy, Cell.checkedAddress_eq, ok_bind, writeBy]
  cases Cell.ofAddress a with
  | cartridge =>
    simp only [checkedWriteCell, writeCell]
    cases inserted : s.cartridge with
    | none =>
      have same : { s with cartridge := none } = s := by rw [← inserted]
      exact congrArg Except.ok same.symm
    | some c =>
      dsimp only
      rw [(sized c inserted).checkedWrite]
      rfl
  | timer r =>
    simp only [checkedWriteCell, writeCell, writeTimer, Timer.checkedWrite_eq]
    cases w <;> cases r <;> rfl
  | register r =>
    cases w with
    | program =>
      have stored : (s.store r (s.registers.programmed r v)).Sized := sized
      simp only [checkedWriteCell, writeCell, writeRegister, stored.checkedFollow]
    | hardware => rfl
  | _ => rfl

theorem Sized.checkedWrite (sized : s.Sized) : s.checkedWrite a v = .ok (s.write a v) :=
  sized.checkedWriteBy

theorem checkedStepTimer_eq (n : Nat) : s.checkedStepTimer n = .ok (s.stepTimer n) := by
  rw [checkedStepTimer, Timer.checkedStep_eq]
  rfl

end Bus

end DotMatrix
