import DotMatrix.Proofs.Cartridge.Acceptance
import DotMatrix.Proofs.Cartridge.Mapping
import Mathlib.Data.List.Basic

namespace DotMatrix

namespace History

/-- The RAM bank that the writes have put into the window, if there is RAM in it. -/
def ramBank? (h : History UInt16) (kind : ControllerKind) : Option Nat :=
  match kind with
  | .fixed => some 0
  | .mbc1 => if h.opened .mbc1 then some (if h.wide then h.sideField 4 else 0) else none
  | .mbc2 => if h.opened .mbc2 then some 0 else none
  | .mbc3 => if h.opened .mbc3 ∧ h.sideField 16 < 4 then some (h.sideField 16) else none
  | .mbc5 => if h.opened .mbc5 then some (h.sideField 16) else none

/-- Whether they have put a clock register there. -/
def clockShown (h : History UInt16) (kind : ControllerKind) : Bool :=
  kind = .mbc3 && h.opened .mbc3 && 8 ≤ h.sideField 16 && h.sideField 16 < 13

/-- Where in a RAM of `size` bytes a bank has the byte at an address. A RAM smaller than a bank
shows several times in it. -/
def ramIndex (kind : ControllerKind) (size bank : Nat) (a : UInt16) : Nat :=
  if kind = .mbc2 then a.toNat % 0x200
  else (bank % ((size + 0x1FFF) / 0x2000) * 0x2000 + a.toNat % 0x2000) % size

/-- The place in RAM that an address names after the writes, if it names one. -/
def ramPlace? (h : History UInt16) (kind : ControllerKind) (size : Nat) (a : UInt16) : Option Nat :=
  if between 0xA000 0xC000 a then (h.ramBank? kind).map fun bank => ramIndex kind size bank a
  else none

/-- What a RAM keeps of a byte, and how it shows it again. -/
def kept (kind : ControllerKind) (v : UInt8) : UInt8 := if kind = .mbc2 then v &&& 0x0F else v

/-- The upper half of a cell reads as ones. -/
def shown (kind : ControllerKind) (v : UInt8) : UInt8 := if kind = .mbc2 then 0xF0 ||| v else v

/-- The bytes that the writes have stored in RAM, each at the place that its address named then. -/
def stored (h : History UInt16) (kind : ControllerKind) (size : Nat) : History Nat :=
  h.zipIdx.filterMap fun w =>
    (ramPlace? (h.take w.2) kind size w.1.1).map fun i => (i, kept kind w.1.2)

/-- A write stores a byte at the place that its address names by then, if it names one. -/
theorem stored_concat (h : History UInt16) (kind : ControllerKind) (size : Nat) (a : UInt16)
    (v : UInt8) : stored (h ++ [(a, v)]) kind size =
      h.stored kind size ++ ((h.ramPlace? kind size a).map fun i => (i, kept kind v)).toList :=
  landed_concat (fun past w => (past.ramPlace? kind size w.1).map fun i => (i, kept kind w.2)) h
    (a, v)

/-- The byte at a place that the last write to it has left, or else the one that was there. -/
def ramByte (h : History UInt16) (kind : ControllerKind) (start : Array UInt8) (i : Nat) : Option UInt8 :=
  ((h.stored kind start.size).last? (· == i)).or start[i]?

/-- The last write to a place decides what is there. -/
theorem ramByte_concat (h : History UInt16) (kind : ControllerKind) (start : Array UInt8) (i : Nat)
    (a : UInt16) (v : UInt8) : ramByte (h ++ [(a, v)]) kind start i =
      if h.ramPlace? kind start.size a = some i then some (kept kind v)
      else h.ramByte kind start i := by
  rw [ramByte, stored_concat]
  cases place : h.ramPlace? kind start.size a with
  | none => simp [ramByte]
  | some j =>
    simp only [Option.map_some, Option.toList_some, last?_concat, beq_iff_eq, Option.some.injEq]
    split <;> rfl

end History

/-- The window shows what the writes have put there. -/
theorem Controller.Tracks.ramWindow {c : Controller} {h : History UInt16} (tracks : c.Tracks h) :
    match c.ramWindow with
    | .closed => h.ramBank? c.kind = none
    | .bank n => c.kind ≠ .mbc2 ∧ h.ramBank? c.kind = some n
    | .cells => c.kind = .mbc2 ∧ h.ramBank? c.kind = some 0
    | .clock _ => h.ramBank? c.kind = none ∧ h.clockShown c.kind = true := by
  cases c with
  | fixed => exact ⟨by decide, rfl⟩
  | mbc1 m =>
    obtain ⟨gate, _, upper, wide⟩ := tracks
    simp only [Controller.ramWindow, Mbc1.ramWindow, History.ramBank?, kind, ← gate, ← upper, ← wide]
    cases m.ramOpen <;> simp
  | mbc2 m =>
    obtain ⟨gate, _⟩ := tracks
    simp only [Controller.ramWindow, Mbc2.ramWindow, History.ramBank?, kind, ← gate]
    cases m.ramOpen <;> simp
  | mbc3 m =>
    obtain ⟨gate, _, select⟩ := tracks
    have few : m.select.toNat < 4 ↔ m.select.toNat ≤ 3 := Nat.lt_succ_iff
    simp only [Controller.ramWindow, Mbc3.ramWindow, History.ramBank?, History.clockShown, kind,
      ← gate, ← select, UInt8.le_iff_toNat_le, UInt8.reduceToNat, few]
    cases m.ramOpen with
    | false => simp
    | true =>
      by_cases isBank : m.select.toNat ≤ 3
      · simp [isBank]
      by_cases isClock : 8 ≤ m.select.toNat ∧ m.select.toNat < 13
      · simp [isBank, isClock]
      · simp [isBank, isClock]
  | mbc5 m =>
    obtain ⟨gate, _, _, ramBank⟩ := tracks
    simp only [Controller.ramWindow, Mbc5.ramWindow, History.ramBank?, kind, ← gate, ← ramBank]
    cases m.ramOpen <;> simp

namespace Banks

variable {s : Banks} {kind : ControllerKind}

/-- Where RAM has banks, an index is a bank and an offset in the window. -/
theorem index_bank (bankSize : s.bankSize = 0x2000) (other : kind ≠ .mbc2) (bank : Nat)
    (a : UInt16) :
    s.index bank (a.toNat % 0x2000) = History.ramIndex kind s.data.size bank a := by
  have count : s.count = (s.data.size + 0x1FFF) / 0x2000 := by rw [Banks.count, bankSize]; rfl
  rw [index, History.ramIndex, if_neg other, count, bankSize, Nat.mod_mod]

/-- Where the cells are on the chip, an index repeats with the cells. -/
theorem index_cell (bankSize : s.bankSize = 0x200) (size : s.data.size = 0x200) (bank : Nat)
    (a : UInt16) : s.index 0 (a.toNat % 0x200) = History.ramIndex .mbc2 s.data.size bank a := by
  rw [index, History.ramIndex, if_pos rfl, bankSize, size, Nat.zero_mod, Nat.zero_mul,
    Nat.zero_add, Nat.mod_mod, Nat.mod_mod]

end Banks

namespace Cartridge

/-- There is RAM, cut into banks as the controller needs it. -/
structure HasRam (d : Cartridge) : Prop where
  nonempty : 0 < d.ram.data.size
  bankSize : d.ram.bankSize = ramBankSize d.controller.kind
  cells : d.controller.kind = .mbc2 → d.ram.data.size = 0x200

variable {image : Array UInt8} {c d : Cartridge} {h : History UInt16}

/-- An accepted image has its RAM cut into the banks of its controller. -/
theorem Accepts.hasRam (accepts : Accepts image c) (nonempty : 0 < c.ram.data.size) :
    c.HasRam where
  nonempty := nonempty
  bankSize := congrArg Banks.bankSize accepts.ram
  cells := by
    intro cells
    have kind := accepts.kind
    rw [cells] at kind
    exact Except.ok.inj (accepts.ramSize.symm.trans (Header.ramSize_of_cells kind))

theorem HasRam.of_sameMake (ram : c.HasRam) (make : SameMake c d) : d.HasRam where
  nonempty := by rw [make.ramSize]; exact ram.nonempty
  bankSize := by rw [make.ramBankSize, make.kind]; exact ram.bankSize
  cells := by rw [make.ramSize, make.kind]; exact ram.cells

theorem HasRam.standard (ram : d.HasRam) (other : d.controller.kind ≠ .mbc2) :
    d.ram.bankSize = 0x2000 := by
  rw [ram.bankSize]
  cases same : d.controller.kind with
  | mbc2 => exact absurd same other
  | _ => rfl

theorem between_iff {a : UInt16} :
    History.between 0xA000 0xC000 a = true ↔ 0xA000 ≤ a ∧ a < 0xC000 := by
  simp [History.between, UInt16.le_iff_toNat_le, UInt16.lt_iff_toNat_lt]

/-- A write stores a byte exactly if its address names a place. -/
theorem write_ram (tracks : d.controller.Tracks h) (ram : d.HasRam) (a : UInt16) (v : UInt8)
    (i : Nat) : (d.write a v).ram.data[i]? =
      if h.ramPlace? d.controller.kind d.ram.data.size a = some i then
        some (History.kept d.controller.kind v)
      else d.ram.data[i]? := by
  have shows := tracks.ramWindow
  unfold write History.ramPlace?
  split
  · rename_i control
    have outside : ¬(0xA000 ≤ a ∧ a < 0xC000) := fun window => absurd control (by
      rw [UInt16.not_lt]; exact UInt16.le_trans (by decide) window.1)
    rw [if_neg (mt between_iff.mp outside), if_neg (by simp)]
  split
  · rename_i window
    rw [if_pos (between_iff.mpr window)]
    split
    · rename_i closed
      rw [closed] at shows
      rw [shows, Option.map_none, if_neg (by simp)]
    · rename_i n bank
      rw [bank] at shows
      obtain ⟨other, shows⟩ := shows
      rw [shows, Option.map_some, History.kept, if_neg other, Banks.write_getElem? ram.nonempty,
        Banks.index_bank (ram.standard other) other]
      simp only [Option.some.injEq]
    · rename_i isCells
      rw [isCells] at shows
      obtain ⟨isCells, shows⟩ := shows
      have bankSize := ram.bankSize
      rw [isCells] at shows bankSize ⊢
      rw [shows, Option.map_some, History.kept, if_pos rfl, Banks.write_getElem? ram.nonempty,
        Banks.index_cell bankSize (ram.cells isCells) 0]
      simp only [Option.some.injEq]
    · rename_i clock
      rw [clock] at shows
      rw [shows.1, Option.map_none, if_neg (by simp)]
  · rename_i outside
    rw [if_neg (mt between_iff.mp outside), if_neg (by simp)]

/-- The window shows the byte at the place that its address names. -/
theorem read_ram (tracks : d.controller.Tracks h) (ram : d.HasRam) {a : UInt16}
    (window : 0xA000 ≤ a ∧ a < 0xC000) (still : h.clockShown d.controller.kind = false) :
    match h.ramPlace? d.controller.kind d.ram.data.size a with
    | none => d.read a = 0xFF
    | some i => (d.ram.data[i]?).map (History.shown d.controller.kind) = some (d.read a) := by
  have shows := tracks.ramWindow
  have above : ¬a < 0x8000 := by
    rw [UInt16.not_lt]
    exact UInt16.le_trans (by decide) window.1
  rw [read, if_neg above, if_pos window, History.ramPlace?, if_pos (between_iff.mpr window)]
  cases content : d.controller.ramWindow with
  | closed =>
    rw [content] at shows
    rw [shows]
    rfl
  | bank n =>
    rw [content] at shows
    obtain ⟨other, shows⟩ := shows
    rw [shows]
    simp only [Option.map_some]
    rw [← Banks.index_bank (ram.standard other) other, Banks.getElem?_index ram.nonempty,
      Option.map_some, History.shown, if_neg other]
  | cells =>
    rw [content] at shows
    obtain ⟨isCells, shows⟩ := shows
    have bankSize := ram.bankSize
    rw [isCells] at shows bankSize ⊢
    rw [shows]
    simp only [Option.map_some]
    rw [← Banks.index_cell bankSize (ram.cells isCells), Banks.getElem?_index ram.nonempty,
      Option.map_some, History.shown, if_pos rfl]
  | clock r =>
    rw [content] at shows
    exact absurd (shows.2.symm.trans still) (by decide)

/-- After any writes each place in RAM holds the last byte stored in it. -/
theorem ram_writeAll (fresh : c.controller = .initial c.controller.kind) (ram : c.HasRam)
    (h : History UInt16) (i : Nat) :
    (c.writeAll h).ram.data[i]? = h.ramByte c.controller.kind c.ram.data i := by
  induction h using List.reverseRecOn with
  | nil => rfl
  | append_singleton h w ih =>
    have make := c.sameMake_writeAll h
    rw [writeAll_concat, History.ramByte_concat,
      write_ram (tracks_writeAll fresh h) (ram.of_sameMake make), make.kind, make.ramSize, ih]

/-- RAM is a memory behind banks. After any writes, each byte of it is what the last write that
reached it has left, or what it was at first. An address from 0xA000 to 0xBFFF shows the byte at
the place that the last writes to the fields give it, or nothing if they give it none. -/
theorem read_ram_writeAll (accepted : ofImage image = .ok c) (nonempty : c.ram.isEmpty = false)
    (make : SameMake c d) (fresh : d.controller = c.controller) (h : History UInt16) :
    ∃ kind size, c.header.kind = .ok kind ∧ c.header.ramSize = .ok size ∧
      (d.writeAll h).ram.data.size = size ∧
      (∀ i, (d.writeAll h).ram.data[i]? = h.ramByte kind d.ram.data i) ∧
      ∀ a, 0xA000 ≤ a ∧ a < 0xC000 → h.clockShown kind = false →
        match h.ramPlace? kind size a with
        | none => (d.writeAll h).read a = 0xFF
        | some i => (h.ramByte kind d.ram.data i).map (History.shown kind) =
            some ((d.writeAll h).read a) := by
  have accepts := accepts_of_ofImage accepted
  have made := d.sameMake_writeAll h
  have present : 0 < c.ram.data.size := by
    simpa [Banks.isEmpty, Nat.pos_iff_ne_zero] using nonempty
  have ram : d.HasRam := (accepts.hasRam present).of_sameMake make
  have initial : d.controller = .initial d.controller.kind := by
    rw [fresh]
    exact accepts.controller
  have bytes := ram_writeAll initial ram h
  have tracks := tracks_writeAll initial h
  rw [make.kind] at bytes
  refine ⟨c.controller.kind, c.ram.data.size, accepts.kind, accepts.ramSize,
    made.ramSize.trans make.ramSize, bytes, fun a window still => ?_⟩
  have shows := read_ram tracks (ram.of_sameMake made) window (by rwa [made.kind, make.kind])
  simp only [made.kind, make.kind, made.ramSize, make.ramSize, bytes] at shows
  exact shows

/-- A byte shows again a quarter of a bank further on. -/
theorem read_ram_mirrored : ∃ c, ofImage oddImage = .ok c ∧
    (c.writeAll [(0x0000, 0x0A), (0xA123, 0x42)]).read 0xB923 = 0x42 := by
  obtain ⟨c, accepted, isMbc1, _, ramSize⟩ := exists_odd
  have small : c.ram.data.size = 0x800 :=
    Except.ok.inj ((accepts_of_ofImage accepted).ramSize.symm.trans ramSize)
  have nonempty : c.ram.isEmpty = false := by simp [Banks.isEmpty, Array.isEmpty, small]
  obtain ⟨kind, size, isKind, isSize, _, _, bytes⟩ :=
    read_ram_writeAll accepted nonempty (.refl c) rfl [(0x0000, 0x0A), (0xA123, 0x42)]
  obtain rfl : kind = .mbc1 := Except.ok.inj (isKind.symm.trans isMbc1)
  obtain rfl : size = 0x800 := Except.ok.inj (isSize.symm.trans ramSize)
  have place : History.ramPlace? [(0x0000, 0x0A), (0xA123, 0x42)] .mbc1 0x800 0xB923 =
      some 0x123 := by decide
  have stored : (History.stored [(0x0000, 0x0A), (0xA123, 0x42)] .mbc1 0x800).last? (· == 0x123) =
      some 0x42 := by decide
  have byte := bytes 0xB923 (by decide) (by decide)
  rw [place] at byte
  simp only [History.ramByte, small, stored, Option.some_or, Option.map_some,
    Option.some.injEq] at byte
  exact ⟨c, accepted, byte.symm⟩

end Cartridge

end DotMatrix
