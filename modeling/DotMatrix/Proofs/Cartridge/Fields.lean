import DotMatrix.Cartridge.Basic
import DotMatrix.Proofs.Bytes
import DotMatrix.Proofs.History
import Mathlib.Tactic.SplitIfs

namespace DotMatrix

namespace History

/-- The addresses from `first` on that lie below `past`. -/
def between (first past : Nat) (a : UInt16) : Bool := first ≤ a.toNat && a.toNat < past

/-- What tells the two registers of the controller with cells apart. -/
def oddPage (a : UInt16) : Bool := a.toNat.testBit 8

variable (h : History UInt16)

/-- Where the RAM is opened and closed. -/
def gateWindow (kind : ControllerKind) (a : UInt16) : Bool :=
  if kind = .mbc2 then between 0x0000 0x4000 a && !oddPage a else between 0x0000 0x2000 a

/-- Where the ROM bank is selected, of those controllers that have one field for it. -/
def bankWindow (kind : ControllerKind) (a : UInt16) : Bool :=
  if kind = .mbc2 then between 0x0000 0x4000 a && oddPage a else between 0x2000 0x4000 a

/-- Whether the RAM is open, which it is not at first. -/
def opened (kind : ControllerKind) : Bool :=
  h.held (gateWindow kind) (fun v => v.toNat % 16 == 10) false

/-- A bank field of which zero means one, and which is one at first. -/
def mainField (kind : ControllerKind) (size : Nat) : Nat :=
  h.held (bankWindow kind) (fun v => max 1 (v.toNat % size)) 1

/-- The field beside it, zero at first. -/
def sideField (size : Nat) : Nat := h.held (between 0x4000 0x6000) (fun v => v.toNat % size) 0

/-- Whether that field counts for RAM and for the low ROM half, which it does not at first. -/
def wide : Bool := h.held (between 0x6000 0x8000) (fun v => v.toNat.testBit 0) false

/-- The two parts of a bank field that two windows share, of which neither has zero mean one. -/
def mainHigh : Nat := h.held (between 0x3000 0x4000) (fun v => v.toNat % 2) 0

/-- The lower part, one at first. -/
def mainLow : Nat := h.held (between 0x2000 0x3000) UInt8.toNat 1

variable (place : UInt16) (v : UInt8)

@[grind =] theorem opened_concat (kind : ControllerKind) : opened (h ++ [(place, v)]) kind =
    if gateWindow kind place then v.toNat % 16 == 10 else h.opened kind := held_concat ..

@[grind =] theorem mainField_concat (kind : ControllerKind) (size : Nat) :
    mainField (h ++ [(place, v)]) kind size =
      if bankWindow kind place then max 1 (v.toNat % size) else h.mainField kind size := held_concat ..

@[grind =] theorem sideField_concat (size : Nat) : sideField (h ++ [(place, v)]) size =
    if between 0x4000 0x6000 place then v.toNat % size else h.sideField size := held_concat ..

@[grind =] theorem wide_concat : wide (h ++ [(place, v)]) =
    if between 0x6000 0x8000 place then v.toNat.testBit 0 else h.wide := held_concat ..

@[grind =] theorem mainHigh_concat : mainHigh (h ++ [(place, v)]) =
    if between 0x3000 0x4000 place then v.toNat % 2 else h.mainHigh := held_concat ..

@[grind =] theorem mainLow_concat : mainLow (h ++ [(place, v)]) =
    if between 0x2000 0x3000 place then v.toNat else h.mainLow := held_concat ..

end History

theorem toNat_nonzeroBank (v : UInt8) : (nonzeroBank v).toNat = max 1 v.toNat := by
  unfold nonzeroBank
  split
  · rename_i zero
    rw [zero]
    rfl
  · rename_i nonzero
    have positive : v.toNat ≠ 0 := fun zero => nonzero (UInt8.toNat_inj.mp zero)
    omega

theorem opensRam_eq (v : UInt8) : opensRam v = (v.toNat % 16 == 10) := by
  have mask := toNat_and_mask v 0x0F 4 rfl
  rw [opensRam, Bool.eq_iff_iff, beq_iff_eq, beq_iff_eq, ← UInt8.toNat_inj, mask]
  rfl

theorem and_one_bne_zero (v : UInt8) : (v &&& 0x01 != 0) = v.toNat.testBit 0 := by
  have mask := toNat_and_mask v 0x01 1 rfl
  rw [Bool.eq_iff_iff, bne_iff_ne, ne_eq, ← UInt8.toNat_inj, mask, Nat.testBit_zero,
    decide_eq_true_eq]
  change ¬v.toNat % 2 = 0 ↔ _
  omega

theorem and_page_eq_zero (a : UInt16) : a &&& 0x0100 = 0 ↔ History.oddPage a = false := by
  rw [History.oddPage, ← UInt16.toNat_inj, UInt16.toNat_and]
  change a.toNat &&& 2 ^ 8 = 0 ↔ _
  rw [Nat.and_two_pow]
  cases a.toNat.testBit 8 <;> decide

open History

/-- The fields are as the last writes to them have left them. -/
structure Mbc1.Tracks (h : History UInt16) (m : Mbc1) : Prop where
  gate : m.ramOpen = h.opened .mbc1
  lower : m.lower.toNat = h.mainField .mbc1 32
  upper : m.upper.toNat = h.sideField 4
  wide : m.wide = h.wide

/-- The registers of the controller with cells are as the writes have left them. -/
structure Mbc2.Tracks (h : History UInt16) (m : Mbc2) : Prop where
  gate : m.ramOpen = h.opened .mbc2
  bank : m.bank.toNat = h.mainField .mbc2 16

/-- So are those of the controller with a clock. -/
structure Mbc3.Tracks (h : History UInt16) (m : Mbc3) : Prop where
  gate : m.ramOpen = h.opened .mbc3
  bank : m.bank.toNat = h.mainField .mbc3 128
  select : m.select.toNat = h.sideField 16

/-- So are those of the controller with a bank of nine bits. -/
structure Mbc5.Tracks (h : History UInt16) (m : Mbc5) : Prop where
  gate : m.ramOpen = h.opened .mbc5
  high : (high m.bank).toNat = h.mainHigh
  low : (low m.bank).toNat = h.mainLow
  ramBank : m.ramBank.toNat = h.sideField 16

variable {h : History UInt16} {a : UInt16} {v : UInt8}

theorem Mbc1.Tracks.write {m : Mbc1} (tracks : m.Tracks h) (control : a.toNat < 0x8000) :
    (m.write a v).Tracks (h ++ [(a, v)]) := by
  obtain ⟨gate, lower, upper, wide⟩ := tracks
  have lowerMask := toNat_and_mask v 0x1F 5 rfl
  have upperMask := toNat_and_mask v 0x03 2 rfl
  unfold Mbc1.write
  simp only [UInt16.lt_iff_toNat_lt, UInt16.reduceToNat]
  constructor
  · grind [gateWindow, between, opensRam_eq]
  · grind [bankWindow, between, toNat_nonzeroBank]
  · grind [between]
  · grind [between, and_one_bne_zero]

theorem Mbc2.Tracks.write {m : Mbc2} (tracks : m.Tracks h) :
    (m.write a v).Tracks (h ++ [(a, v)]) := by
  obtain ⟨gate, bank⟩ := tracks
  have mask := toNat_and_mask v 0x0F 4 rfl
  unfold Mbc2.write
  simp only [UInt16.le_iff_toNat_le, UInt16.reduceToNat, and_page_eq_zero]
  constructor
  · grind [gateWindow, between, opensRam_eq]
  · grind [bankWindow, between, toNat_nonzeroBank]

theorem Mbc3.Tracks.write {m : Mbc3} (tracks : m.Tracks h) :
    (m.write a v).Tracks (h ++ [(a, v)]) := by
  obtain ⟨gate, bank, select⟩ := tracks
  have bankMask := toNat_and_mask v 0x7F 7 rfl
  have selectMask := toNat_and_mask v 0x0F 4 rfl
  unfold Mbc3.write
  simp only [UInt16.lt_iff_toNat_lt, UInt16.reduceToNat]
  constructor
  · grind [gateWindow, between, opensRam_eq]
  · grind [bankWindow, between, toNat_nonzeroBank]
  · grind [between]

theorem Mbc5.Tracks.write {m : Mbc5} (tracks : m.Tracks h) :
    (m.write a v).Tracks (h ++ [(a, v)]) := by
  obtain ⟨gate, upper, lower, ramBank⟩ := tracks
  have bitMask := toNat_and_mask v 0x01 1 rfl
  have bankMask := toNat_and_mask v 0x0F 4 rfl
  unfold Mbc5.write
  simp only [UInt16.lt_iff_toNat_lt, UInt16.reduceToNat]
  constructor
  · grind [gateWindow, between, opensRam_eq]
  · grind [between, high_word]
  · grind [between, low_word]
  · grind [between]

namespace Controller

/-- Whatever the controller is, its registers are as the writes have left them. -/
def Tracks (h : History UInt16) : Controller → Prop
  | fixed => True
  | mbc1 m => m.Tracks h
  | mbc2 m => m.Tracks h
  | mbc3 m => m.Tracks h
  | mbc5 m => m.Tracks h

theorem tracks_initial (kind : ControllerKind) : (initial kind).Tracks [] := by
  cases kind with
  | fixed => trivial
  | _ => constructor <;> rfl

/-- One write to a control address sets the registers as it sets the fields. -/
theorem Tracks.write {c : Controller} (tracks : c.Tracks h) (control : a.toNat < 0x8000) :
    (c.write a v).Tracks (h ++ [(a, v)]) := by
  cases c with
  | fixed => trivial
  | mbc1 => exact Mbc1.Tracks.write tracks control
  | mbc2 => exact Mbc2.Tracks.write tracks
  | mbc3 => exact Mbc3.Tracks.write tracks
  | mbc5 => exact Mbc5.Tracks.write tracks

/-- No field has its window above the ROM. -/
theorem Tracks.beyond {c : Controller} (tracks : c.Tracks h) (above : 0x8000 ≤ a.toNat) :
    c.Tracks (h ++ [(a, v)]) := by
  cases c with
  | fixed => trivial
  | mbc1 =>
    obtain ⟨gate, lower, upper, wide⟩ := tracks
    constructor <;> grind [gateWindow, bankWindow, between]
  | mbc2 =>
    obtain ⟨gate, bank⟩ := tracks
    constructor <;> grind [gateWindow, bankWindow, between]
  | mbc3 =>
    obtain ⟨gate, bank, select⟩ := tracks
    constructor <;> grind [gateWindow, bankWindow, between]
  | mbc5 =>
    obtain ⟨gate, upper, lower, ramBank⟩ := tracks
    constructor <;> grind [gateWindow, between]

theorem Tracks.writeClock {c : Controller} (tracks : c.Tracks h) (r : Fin 5) :
    (c.writeClock r v).Tracks h := by
  cases c with
  | mbc3 =>
    obtain ⟨gate, bank, select⟩ := tracks
    exact ⟨gate, bank, select⟩
  | _ => exact tracks

end Controller

namespace Cartridge

/-- A run of writes. -/
def writeAll (c : Cartridge) (h : History UInt16) : Cartridge :=
  h.foldl (fun c w => c.write w.1 w.2) c

theorem writeAll_concat (c : Cartridge) (h : History UInt16) (a : UInt16) (v : UInt8) :
    c.writeAll (h ++ [(a, v)]) = (c.writeAll h).write a v := by
  rw [writeAll, List.foldl_append]
  rfl

/-- A write to a cartridge keeps track of its controller, in the window as well. -/
theorem tracks_write {c : Cartridge} (tracks : c.controller.Tracks h) :
    (c.write a v).controller.Tracks (h ++ [(a, v)]) := by
  unfold write
  split
  · rename_i control
    exact tracks.write (UInt16.lt_iff_toNat_lt.mp control)
  rename_i above
  have above : 0x8000 ≤ a.toNat := UInt16.le_iff_toNat_le.mp (UInt16.not_lt.mp above)
  split
  · split
    · exact tracks.beyond above
    · exact tracks.beyond above
    · exact tracks.beyond above
    · exact (tracks.beyond above).writeClock _
  · exact tracks.beyond above

/-- The fields of a history are the registers after its writes. -/
theorem tracks_writeAll {c : Cartridge} (fresh : c.controller = .initial c.controller.kind)
    (h : History UInt16) : (c.writeAll h).controller.Tracks h := by
  induction h using List.reverseRecOn with
  | nil =>
    rw [writeAll, List.foldl_nil, fresh]
    exact Controller.tracks_initial _
  | append_singleton h w ih =>
    rw [writeAll_concat]
    exact tracks_write ih

end Cartridge

end DotMatrix
