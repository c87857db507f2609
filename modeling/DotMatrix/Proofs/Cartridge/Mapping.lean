import DotMatrix.Proofs.Cartridge.Fields
import DotMatrix.Proofs.Cartridge.Rom

namespace DotMatrix

/-- The ROM bank that the writes have selected for an address below 0x8000. -/
def History.romBank (h : History UInt16) (kind : ControllerKind) (a : UInt16) : Nat :=
  match kind with
  | .fixed => a.toNat / 0x4000
  | .mbc1 =>
    if a < 0x4000 then (if h.wide then 32 * h.sideField 4 else 0)
    else 32 * h.sideField 4 + h.mainField .mbc1 32
  | .mbc2 => if a < 0x4000 then 0 else h.mainField .mbc2 16
  | .mbc3 => if a < 0x4000 then 0 else h.mainField .mbc3 128
  | .mbc5 => if a < 0x4000 then 0 else 256 * h.mainHigh + h.mainLow

/-- The bank that a controller shows is the one its fields name. -/
theorem Controller.Tracks.romBank {c : Controller} {h : History UInt16} (tracks : c.Tracks h)
    (a : UInt16) : c.romBank a = h.romBank c.kind a := by
  cases c with
  | fixed => rfl
  | mbc1 m =>
    obtain ⟨_, lower, upper, wide⟩ := tracks
    simp only [Controller.romBank, Mbc1.romBank, History.romBank, kind, lower, upper, wide,
      Nat.mul_comm]
  | mbc2 m => simp only [Controller.romBank, Mbc2.romBank, History.romBank, kind, tracks.bank]
  | mbc3 m => simp only [Controller.romBank, Mbc3.romBank, History.romBank, kind, tracks.bank]
  | mbc5 m =>
    have parts := toNat_word (high m.bank) (low m.bank)
    rw [word_high_low, tracks.high, tracks.low, Nat.mul_comm] at parts
    simp only [Controller.romBank, Mbc5.romBank, History.romBank, kind, parts]

namespace Cartridge

variable {image : Array UInt8} {c : Cartridge}

theorem sameMake_writeAll (c : Cartridge) (h : History UInt16) : SameMake c (c.writeAll h) := by
  induction h using List.reverseRecOn with
  | nil => exact .refl c
  | append_singleton h w ih =>
    rw [writeAll_concat]
    exact ih.trans (sameMake_write _ _ _)

/-- From an accepted image on the controller keeps track of every write. -/
theorem Accepts.tracks (accepts : Accepts image c) (h : History UInt16) :
    (c.writeAll h).controller.Tracks h := tracks_writeAll accepts.controller h

/-- Whatever has been written, the byte at an address below 0x8000 is the one of the image at that
offset of the bank that the last writes to the bank fields select, modulo the number of banks. It
is always there, and no write changes a byte of the ROM. -/
theorem read_rom_writeAll (accepted : ofImage image = .ok c) (h : History UInt16) :
    ∃ kind n, c.header.kind = .ok kind ∧ c.header.romSize = .ok (n * 0x4000) ∧ 2 ≤ n ∧
      (c.writeAll h).rom = ⟨image.extract 0 (n * 0x4000), 0x4000⟩ ∧
      ∀ a < 0x8000,
        ((c.writeAll h).rom.place? ((c.writeAll h).controller.romBank a) (a.toNat % 0x4000)).map
            Fin.val = some (h.romBank kind a % n * 0x4000 + a.toNat % 0x4000) ∧
        image[h.romBank kind a % n * 0x4000 + a.toNat % 0x4000]? =
          some ((c.writeAll h).read a) := by
  have accepts := accepts_of_ofImage accepted
  have make := c.sameMake_writeAll h
  obtain ⟨n, two, full⟩ := accepts.full
  have wide : 0 < c.rom.bankSize := by rw [accepts.bankSize]; decide
  have size : c.rom.data.size = n * 0x4000 := full.trans (by rw [accepts.bankSize])
  have bank (a : UInt16) : (c.writeAll h).controller.romBank a = h.romBank c.controller.kind a := by
    rw [(accepts.tracks h).romBank, make.kind]
  refine ⟨c.controller.kind, n, accepts.kind, ?_, two, ?_, fun a low => ⟨?_, ?_⟩⟩
  · rw [accepts.romSize, size]
  · rw [make.rom, accepts.rom, size]
    rfl
  · have nonempty : 0 < c.rom.data.size := by omega
    rw [make.rom, bank, Banks.map_place? nonempty, Banks.index_of_full full wide (by omega),
      accepts.bankSize, Nat.mod_mod]
  · have byte := accepts.read_rom make low
    rwa [romPlace, bank, make.rom, Banks.count_of_full full wide] at byte

/-- For the controller with two bank fields, 72 banks filled with their numbers and RAM of a
quarter of a bank. -/
def oddImage : Array UInt8 := Array.ofFn fun i : Fin 0x120000 =>
  if i.val = 0x147 then 0x02 else if i.val = 0x148 then 0x52 else if i.val = 0x149 then 0x01
  else UInt8.ofNat (i.val / 0x4000)

theorem exists_odd : ∃ c, ofImage oddImage = .ok c ∧ c.header.kind = .ok .mbc1 ∧
    c.header.romSize = .ok 0x120000 ∧ c.header.ramSize = .ok 0x800 := by
  have size : oddImage.size = 0x120000 := Array.size_ofFn
  obtain ⟨title, header⟩ := header_ofFn
    (fun n => if n = 0x147 then 0x02 else if n = 0x148 then 0x52 else if n = 0x149 then 0x01
      else UInt8.ofNat (n / 0x4000)) (show 0x150 ≤ 0x120000 by decide)
  obtain ⟨c, accepted, _⟩ := exists_ofImage header rfl rfl rfl (Nat.le_of_eq size.symm)
  have same := Except.ok.inj (header.symm.trans (accepts_of_ofImage accepted).header)
  exact ⟨c, accepted, by rw [← same]; rfl, by rw [← same]; rfl, by rw [← same]; rfl⟩

/-- The fields select bank 74 of 72. -/
theorem read_rom_past_last_bank : ∃ c, ofImage oddImage = .ok c ∧
    (c.writeAll [(0x4000, 0xFE), (0x2000, 0x2A)]).read 0x4000 = 2 := by
  obtain ⟨c, accepted, isMbc1, romSize, _⟩ := exists_odd
  obtain ⟨kind, n, isKind, isSize, _, _, bytes⟩ :=
    read_rom_writeAll accepted [(0x4000, 0xFE), (0x2000, 0x2A)]
  obtain rfl : kind = .mbc1 := Except.ok.inj (isKind.symm.trans isMbc1)
  have many : n * 0x4000 = 0x120000 := Except.ok.inj (isSize.symm.trans romSize)
  obtain rfl : n = 72 := by omega
  have bank : History.romBank [(0x4000, 0xFE), (0x2000, 0x2A)] .mbc1 0x4000 = 74 := by decide
  have byte := (bytes 0x4000 (by decide)).2
  rw [bank, oddImage, Array.getElem?_ofFn, dif_pos (by decide), Option.some.injEq] at byte
  exact ⟨c, accepted, byte.symm⟩

end Cartridge

end DotMatrix
