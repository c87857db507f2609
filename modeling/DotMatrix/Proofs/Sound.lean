import DotMatrix.Proofs.Bus.Footprint
import DotMatrix.Proofs.History

namespace DotMatrix

namespace Bus

/-- Writes by whoever makes them, the first one first. -/
def writeAllBy (s : Bus) (h : History (Writer × UInt16)) : Bus :=
  h.foldl (fun s w => s.writeBy w.1.1 w.1.2 w.2) s

theorem writeAllBy_concat (s : Bus) (h : History (Writer × UInt16)) (w : (Writer × UInt16) × UInt8) :
    s.writeAllBy (h ++ [w]) = (s.writeAllBy h).writeBy w.1.1 w.1.2 w.2 := by
  rw [writeAllBy, List.foldl_append]
  rfl

end Bus

namespace Sound

/-- What a register of the sound is for. -/
inductive Purpose
  | power
  | sweep
  | length (c : Channel)
  | envelope (c : Channel)
  /-- The lower eight bits of a frequency. -/
  | lower (c : Channel)
  /-- The upper three bits of a frequency, and the bit that starts the channel. -/
  | upper (c : Channel)
  deriving DecidableEq

namespace Purpose

/-- The addresses of those registers that a synthesiser hears of. -/
def addresses : List (UInt16 × Purpose) :=
  [(0xFF10, sweep),
   (0xFF11, length .square1), (0xFF12, envelope .square1),
   (0xFF13, lower .square1), (0xFF14, upper .square1),
   (0xFF16, length .square2), (0xFF17, envelope .square2),
   (0xFF18, lower .square2), (0xFF19, upper .square2),
   (0xFF1B, length .wave), (0xFF1C, envelope .wave),
   (0xFF1D, lower .wave), (0xFF1E, upper .wave),
   (0xFF20, length .noise), (0xFF21, envelope .noise),
   (0xFF22, lower .noise), (0xFF23, upper .noise),
   (0xFF26, power)]

/-- What an address is for, if a synthesiser hears of it. -/
def at? (a : UInt16) : Option Purpose := addresses.lookup a

/-- A channel starts if bit 7 is set. -/
def triggered (c : Channel) (v : UInt8) : List Event :=
  if v.toNat.testBit 7 then [.trigger c] else []

/-- What a synthesiser is told when a program writes `v`, given the frequencies that the channels
have from then on. Noise has no frequency but the byte for the lower bits. -/
def events (frequency : Channel → UInt16) (v : UInt8) : Purpose → List Event
  | power => [.power (v.toNat.testBit 7)]
  | sweep => [.sweep v]
  | length .wave => [.length .wave v]
  | length c => [.length c (v &&& 0x3F)]
  | envelope c => [.envelope c v]
  | lower .noise => [.frequency .noise v.toUInt16]
  | upper .noise => triggered .noise v
  | lower c => [.frequency c (frequency c)]
  | upper c => .frequency c (frequency c) :: triggered c v

end Purpose

namespace Channel

/-- Where the lower eight bits of a frequency are written. -/
def lowerAt : Channel → UInt16
  | square1 => 0xFF13
  | square2 => 0xFF18
  | wave => 0xFF1D
  | noise => 0xFF22

/-- Where the upper three bits of a frequency are written. -/
def upperAt : Channel → UInt16
  | square1 => 0xFF14
  | square2 => 0xFF19
  | wave => 0xFF1E
  | noise => 0xFF23

end Channel

/-- The frequency that the last writes to its registers have left, by whoever they were. All of the
upper bits are set at first and none of the lower ones. -/
def frequency (h : History (Writer × UInt16)) (c : Channel) : UInt16 :=
  UInt16.ofNat (256 * h.held (·.2 == c.upperAt) (fun v => v.toNat % 8) 7 +
    h.held (·.2 == c.lowerAt) UInt8.toNat 0)

/-- What a synthesiser hears of a write. -/
def told (frequency : Channel → UInt16) (w : Writer) (a : UInt16) (v : UInt8) : List Event :=
  match w, Purpose.at? a with
  | .program, some p => p.events frequency v
  | _, _ => []

/-- What it hears of a write after others, whose own byte counts already. -/
def heard (h : History (Writer × UInt16)) (w : (Writer × UInt16) × UInt8) : List Event :=
  told (frequency (h ++ [w])) w.1.1 w.1.2 w.2

/-- What the place among the registers of a channel is for. -/
def Purpose.ofPlace (c : Channel) : Nat → Option Purpose
  | 1 => some (length c)
  | 2 => some (envelope c)
  | 3 => some (lower c)
  | 4 => some (upper c)
  | _ => none

/-- The table of addresses against the places of the registers in their channels. -/
theorem Purpose.at?_address : ∀ r : Register, at? r.address =
    if r = .nr52 then some power else if r = .nr10 then some sweep
    else (Channel.at? r).bind fun p => ofPlace p.1 p.2 := by
  decide +kernel

/-- Those registers are places of the bus like any other. -/
theorem Purpose.exists_register {a : UInt16} {p : Purpose} (found : at? a = some p) :
    ∃ r : Register, Cell.ofAddress a = .register r ∧ 0xFF10 ≤ a ∧ a ≤ 0xFF26 := by
  have all : ∀ e ∈ addresses,
      (∃ r : Register, Cell.ofAddress e.1 = .register r) ∧ 0xFF10 ≤ e.1 ∧ e.1 ≤ 0xFF26 := by
    decide +kernel
  obtain ⟨before, after, split, -⟩ := List.lookup_eq_some_iff.mp found
  have member : (a, p) ∈ addresses := by
    rw [split]
    exact List.mem_append_right _ List.mem_cons_self
  obtain ⟨⟨r, cell⟩, bounds⟩ := all _ member
  exact ⟨r, cell, bounds⟩

theorem Channel.period_eq (c : Channel) (file : Registers) : c.period file = UInt16.ofNat
    (256 * ((file.stored (c.base + 4)).toNat % 8) + (file.stored (c.base + 3)).toNat) := by
  have mask : (file.stored (c.base + 4) &&& 0x07).toNat = (file.stored (c.base + 4)).toNat % 8 :=
    toNat_and_mask _ 0x07 3 rfl
  have small := (file.stored (c.base + 4) &&& 0x07).toNat_lt
  have byte := (file.stored (c.base + 3)).toNat_lt
  have word := toNat_word (file.stored (c.base + 4) &&& 0x07) (file.stored (c.base + 3))
  apply UInt16.toNat_inj.mp
  rw [← mask, UInt16.toNat_ofNat', Nat.mod_eq_of_lt (by omega), Nat.mul_comm]
  exact word

/-- What a channel tells is what the purpose of its register tells. -/
theorem Channel.events_eq (c : Channel) (file : Registers) (place : Nat) (v : UInt8) :
    c.events file place v =
      ((Purpose.ofPlace c place).map (Purpose.events (·.period file) v)).getD [] := by
  unfold events Purpose.ofPlace
  split <;> cases c <;> simp [Purpose.events, Purpose.triggered, testBit_seven]

variable {frequency : Channel → UInt16} {w : Writer} {a : UInt16} {v : UInt8}

theorem told_program (frequency : Channel → UInt16) (a : UInt16) (v : UInt8) :
    told frequency .program a v = ((Purpose.at? a).map (Purpose.events frequency v)).getD [] := by
  unfold told
  cases Purpose.at? a <;> rfl

/-- The table tells what the register does. -/
theorem told_of_register {r : Register} (cell : Cell.ofAddress a = .register r) (file : Registers)
    (v : UInt8) : told (·.period file) .program a v = events file r v := by
  have purpose := Purpose.at?_address r
  rw [← Cell.eq_address cell] at purpose
  rw [told_program, purpose, events]
  split_ifs
  · rw [← testBit_seven]
    rfl
  · rfl
  cases Channel.at? r with
  | none => rfl
  | some both =>
    change _ = both.1.events file both.2 v
    rw [Channel.events_eq, Option.bind_some]

theorem told_of_not_register (elsewhere : ∀ r, Cell.ofAddress a ≠ .register r) :
    told frequency w a v = [] := by
  unfold told
  split
  · rename_i found
    obtain ⟨r, cell, -⟩ := Purpose.exists_register found
    exact absurd cell (elsewhere r)
  · rfl

/-- Only programs are heard, and only between FF10 and FF26. -/
theorem told_bounds (nonempty : told frequency w a v ≠ []) :
    w = .program ∧ 0xFF10 ≤ a ∧ a ≤ 0xFF26 := by
  unfold told at nonempty
  split at nonempty
  · rename_i found
    obtain ⟨-, -, bounds⟩ := Purpose.exists_register found
    exact ⟨rfl, bounds⟩
  · exact absurd rfl nonempty

end Sound

namespace Bus

theorem follow_sound (s : Bus) (r : Register) (v : UInt8) :
    (s.follow r v).sound.toList = s.sound.toList ++ Sound.events s.registers r v := by
  unfold follow
  split
  · rename_i copy
    obtain ⟨oam, copied⟩ := copySprites_frame (word v 0) 0xA0 s
    have silent : Sound.events s.registers .dma v = [] := rfl
    rw [copied, copy, silent, List.append_nil]
  · split
    · rename_i silent
      rw [silent, List.append_nil]
    · simp

/-- A write adds to the trace what is told of it, with the periods that it leaves. -/
theorem writeBy_sound (s : Bus) (w : Writer) (a : UInt16) (v : UInt8) :
    (s.writeBy w a v).sound.toList =
      s.sound.toList ++ Sound.told (·.period (s.writeBy w a v).registers) w a v := by
  cases cell : Cell.ofAddress a with
  | register r =>
    cases w with
    | hardware =>
      rw [writeBy, cell]
      exact (List.append_nil _).symm
    | program =>
      rw [Sound.told_of_register cell, writeBy, cell, writeCell, writeRegister, follow_sound,
        follow_registers]
      rfl
  | timer t =>
    rw [Sound.told_of_not_register (by simp [cell]), List.append_nil, writeBy, cell, writeCell]
    obtain ⟨timer, result⟩ := s.writeTimer_frame w t v
    rw [result]
  | _ =>
    rw [Sound.told_of_not_register (by simp [cell]), List.append_nil, writeBy, cell]
    rfl

/-- A register that a program may change as a whole holds what was written to it, by anyone. -/
theorem writeBy_stored {r : Register} {b : UInt16} (cell : Cell.ofAddress b = .register r)
    (free : r.programBits = -1) (s : Bus) (w : Writer) (a : UInt16) (v : UInt8) :
    (s.writeBy w a v).registers.stored r = if a = b then v else s.registers.stored r := by
  simp only [← Cell.ofAddress_eq_register cell]
  unfold writeBy
  generalize Cell.ofAddress a = place
  cases place with
  | register q =>
    have whole : (s.writeCell w a v (.register q)).registers =
        s.registers.put q (if w = .program then s.registers.programmed q v else v) := by
      cases w with
      | program => exact follow_registers _ q v
      | hardware => rfl
    rw [whole]
    by_cases same : q = r
    · rw [if_pos (congrArg _ same), same, Registers.stored_put_self,
        Registers.programmed_of_free free, ite_self]
    · have other : Cell.register q ≠ .register r := fun cell => same (Cell.register.inj cell)
      rw [if_neg other, Registers.stored_put_of_ne same]
  | timer t =>
    obtain ⟨timer, result⟩ := s.writeTimer_frame w t v
    rw [writeCell, result]
    rfl
  | _ => rfl

/-- A register that takes every byte holds the last one written to it, by whomever. -/
theorem writeAllBy_stored {r : Register} {b : UInt16} (cell : Cell.ofAddress b = .register r)
    (free : r.programBits = -1) (s : Bus) (h : History (Writer × UInt16)) (meaning : UInt8 → Nat) :
    meaning ((s.writeAllBy h).registers.stored r) =
      h.held (·.2 == b) meaning (meaning (s.registers.stored r)) := by
  induction h using List.reverseRecOn with
  | nil => rfl
  | append_singleton h w ih =>
    rw [writeAllBy_concat, writeBy_stored cell free, History.held_concat, ← ih]
    simp only [beq_iff_eq]
    split <;> rfl

end Bus

namespace Sound

/-- The registers of a channel hold the frequency that was written to them last. -/
theorem period_writeAllBy (revision : Revision) (cartridge : Option Cartridge)
    (h : History (Writer × UInt16)) (c : Channel) :
    c.period ((Bus.boot revision cartridge).writeAllBy h).registers = frequency h c := by
  have lowerCell : Cell.ofAddress c.lowerAt = .register (c.base + 3) := by cases c <;> decide
  have upperCell : Cell.ofAddress c.upperAt = .register (c.base + 4) := by cases c <;> decide
  have lowerFree : (c.base + 3).programBits = -1 := by cases c <;> decide
  have upperFree : (c.base + 4).programBits = -1 := by cases c <;> decide
  have lowerBoot : (Registers.boot.stored (c.base + 3)).toNat = 0 := by cases c <;> decide +kernel
  have upperBoot : (Registers.boot.stored (c.base + 4)).toNat % 8 = 7 := by
    cases c <;> decide +kernel
  have lower := Bus.writeAllBy_stored lowerCell lowerFree (.boot revision cartridge) h UInt8.toNat
  have upper := Bus.writeAllBy_stored upperCell upperFree (.boot revision cartridge) h
    fun v => v.toNat % 8
  rw [show (Bus.boot revision cartridge).registers = .boot from rfl, lowerBoot] at lower
  rw [show (Bus.boot revision cartridge).registers = .boot from rfl, upperBoot] at upper
  rw [frequency, ← lower, ← upper]
  exact Channel.period_eq c _

/-- A write adds to the trace what is heard of it. -/
theorem sound_concat (revision : Revision) (cartridge : Option Cartridge)
    (h : History (Writer × UInt16)) (w : (Writer × UInt16) × UInt8) :
    ((Bus.boot revision cartridge).writeAllBy (h ++ [w])).sound.toList =
      ((Bus.boot revision cartridge).writeAllBy h).sound.toList ++ heard h w := by
  have periods := funext (period_writeAllBy revision cartridge (h ++ [w]))
  rw [Bus.writeAllBy_concat] at periods ⊢
  rw [Bus.writeBy_sound, heard, ← periods]

/-- The trace of the sound after any writes since power-on, by programs and by other parts of the
machine, is what is heard of each of them in turn. Only a program's writes to the registers from
0xFF10 to 0xFF26 are heard at all. -/
theorem trace_exact (revision : Revision) (cartridge : Option Cartridge)
    (h : History (Writer × UInt16)) :
    let s := (Bus.boot revision cartridge).writeAllBy h
    s.sound.toList = h.traced heard ∧
    ∀ w a v, (s.writeBy w a v).sound ≠ s.sound → w = .program ∧ 0xFF10 ≤ a ∧ a ≤ 0xFF26 := by
  intro s
  refine ⟨?_, fun w a v changed => ?_⟩
  · induction h using List.reverseRecOn with
    | nil => rfl
    | append_singleton h w ih =>
      rw [History.traced_concat, ← ih]
      exact sound_concat revision cartridge h w
  · have grown := s.writeBy_sound w a v
    have nonempty : told (·.period (s.writeBy w a v).registers) w a v ≠ [] := by
      intro silent
      rw [silent, List.append_nil] at grown
      exact changed (Array.toList_inj.mp grown)
    exact told_bounds nonempty

/-- A byte that another part of the machine has written is not heard, but counts for the frequency. -/
theorem trace_exact_of_hardware :
    let s := (Bus.boot .standard none).writeAllBy
      [((.program, 0xFF13), 0x34), ((.hardware, 0xFF14), 0x05), ((.program, 0xFF14), 0x82)]
    s.sound.toList = [.frequency .square1 0x734, .frequency .square1 0x234, .trigger .square1] ∧
      (s.writeBy .program 0xFF26 0x00).sound ≠ s.sound ∧ (0xFF10 : UInt16) ≤ 0xFF26 := by
  intro s
  obtain ⟨trace, heard⟩ := trace_exact .standard none
    [((.program, 0xFF13), 0x34), ((.hardware, 0xFF14), 0x05), ((.program, 0xFF14), 0x82)]
  have changed : (s.writeBy .program 0xFF26 0x00).sound ≠ s.sound := by decide +kernel
  exact ⟨trace.trans (by decide), changed, (heard _ _ _ changed).2.1⟩

end Sound

end DotMatrix
