import DotMatrix.Cartridge.Storage
import DotMatrix.Proofs.Cartridge.Banks

namespace DotMatrix

/-- Every ROM has at least two whole banks. -/
theorem Header.romSize_eq_ok {h : Header} {size : Nat} (known : h.romSize = .ok size) :
    ∃ n, 2 ≤ n ∧ size = n * 0x4000 := by
  unfold romSize at known
  dsimp only at known
  split at known
  · cases known
    have positive := Nat.two_pow_pos h.romCode.toNat
    rw [Nat.shiftLeft_eq]
    exact ⟨2 ^ h.romCode.toNat * 2, by omega, by omega⟩
  split at known
  · cases known
    exact ⟨72, by decide, rfl⟩
  split at known
  · cases known
    exact ⟨80, by decide, rfl⟩
  split at known
  · cases known
    exact ⟨96, by decide, rfl⟩
  · cases known

@[simp] theorem Controller.kind_writeClock (c : Controller) (r : Fin 5) (v : UInt8) :
    (c.writeClock r v).kind = c.kind := by
  cases c <;> rfl

namespace Cartridge

/-- What it takes for an image to become a cartridge, and which one it becomes. -/
structure Accepts (image : Array UInt8) (c : Cartridge) : Prop where
  header : Header.ofImage image = .ok c.header
  kind : c.header.kind = .ok c.controller.kind
  romSize : c.header.romSize = .ok c.rom.data.size
  ramSize : c.header.ramSize = .ok c.ram.data.size
  fits : c.rom.data.size ≤ image.size
  rom : c.rom = ⟨image.extract 0 c.rom.data.size, Header.romBankSize⟩
  ram : c.ram = .zeros c.ram.data.size (ramBankSize c.controller.kind)
  controller : c.controller = .initial c.controller.kind
  saveName : c.saveName = none

theorem bind_eq_ok {ε α β : Type} {x : Except ε α} {f : α → Except ε β} {b : β}
    (result : x.bind f = .ok b) : ∃ a, x = .ok a ∧ f a = .ok b := by
  cases x with
  | error => cases result
  | ok a => exact ⟨a, rfl, result⟩

/-- An image that is accepted meets every condition, and its cartridge is made of it. -/
theorem accepts_of_ofImage {image : Array UInt8} {c : Cartridge} (accepted : ofImage image = .ok c) :
    Accepts image c := by
  obtain ⟨header, isHeader, accepted⟩ := bind_eq_ok accepted
  obtain ⟨kind, isKind, accepted⟩ := bind_eq_ok accepted
  obtain ⟨romSize, isRomSize, accepted⟩ := bind_eq_ok accepted
  obtain ⟨ramSize, isRamSize, accepted⟩ := bind_eq_ok accepted
  by_cases short : image.size < romSize
  · rw [if_pos short] at accepted
    cases accepted
  rw [if_neg short] at accepted
  cases accepted
  have fits := Nat.le_of_not_lt short
  have size : (image.extract 0 romSize).size = romSize := by simp [fits]
  have ram : (Banks.zeros ramSize (ramBankSize kind)).data.size = ramSize := by simp [Banks.zeros]
  constructor <;> simp only [Controller.kind_initial, size, ram] <;> assumption

/-- A long enough image with codes that are known is accepted. -/
theorem exists_ofImage {image : Array UInt8} {header : Header} {kind : ControllerKind}
    {romSize ramSize : Nat} (isHeader : Header.ofImage image = .ok header)
    (isKind : header.kind = .ok kind) (isRomSize : header.romSize = .ok romSize)
    (isRamSize : header.ramSize = .ok ramSize) (fits : romSize ≤ image.size) :
    ∃ c, ofImage image = .ok c ∧ c.controller = .initial kind ∧ c.rom.data.size = romSize := by
  have long := Nat.not_lt.mpr fits
  simp [ofImage, isHeader, isKind, isRomSize, isRamSize, long, fits, bind, Except.bind, pure,
    Except.pure]

/-- An image that lacks some of the ROM it declares is not. -/
theorem ofImage_of_short {image : Array UInt8} {header : Header} {kind : ControllerKind}
    {romSize ramSize : Nat} (isHeader : Header.ofImage image = .ok header)
    (isKind : header.kind = .ok kind) (isRomSize : header.romSize = .ok romSize)
    (isRamSize : header.ramSize = .ok ramSize) (short : image.size < romSize) :
    ofImage image = .error (.sizeMismatch romSize image.size) := by
  simp [ofImage, isHeader, isKind, isRomSize, isRamSize, short, bind, Except.bind, throw,
    throwThe, MonadExceptOf.throw]

theorem Accepts.bankSize {image : Array UInt8} {c : Cartridge} (accepts : Accepts image c) :
    c.rom.bankSize = 0x4000 :=
  congrArg Banks.bankSize accepts.rom

/-- There are at least two banks of ROM, all of them whole. -/
theorem Accepts.full {image : Array UInt8} {c : Cartridge} (accepts : Accepts image c) :
    ∃ n, 2 ≤ n ∧ c.rom.data.size = n * c.rom.bankSize := by
  obtain ⟨n, two, size⟩ := Header.romSize_eq_ok accepts.romSize
  exact ⟨n, two, by rw [size, accepts.bankSize]⟩

theorem Accepts.two_le_count {image : Array UInt8} {c : Cartridge} (accepts : Accepts image c) :
    2 ≤ c.rom.count := by
  obtain ⟨n, two, full⟩ := accepts.full
  rwa [Banks.count_of_full full (by rw [accepts.bankSize]; decide)]

theorem Accepts.count_mul {image : Array UInt8} {c : Cartridge} (accepts : Accepts image c) :
    c.rom.count * 0x4000 = c.rom.data.size := by
  obtain ⟨n, _, full⟩ := accepts.full
  rw [Banks.count_of_full full (by rw [accepts.bankSize]; decide), full, accepts.bankSize]

/-- What no write changes. -/
structure SameMake (c d : Cartridge) : Prop where
  header : d.header = c.header
  rom : d.rom = c.rom
  kind : d.controller.kind = c.controller.kind
  ramSize : d.ram.data.size = c.ram.data.size
  ramBankSize : d.ram.bankSize = c.ram.bankSize

theorem SameMake.refl (c : Cartridge) : SameMake c c := ⟨rfl, rfl, rfl, rfl, rfl⟩

theorem SameMake.trans {c d e : Cartridge} (first : SameMake c d) (second : SameMake d e) :
    SameMake c e where
  header := second.header.trans first.header
  rom := second.rom.trans first.rom
  kind := second.kind.trans first.kind
  ramSize := second.ramSize.trans first.ramSize
  ramBankSize := second.ramBankSize.trans first.ramBankSize

/-- A write changes the controller's registers and bytes of RAM, and nothing else of a cartridge. -/
theorem sameMake_write (c : Cartridge) (a : UInt16) (v : UInt8) : SameMake c (c.write a v) := by
  unfold write
  split
  · exact ⟨rfl, rfl, Controller.kind_write _ _ _, rfl, rfl⟩
  split
  · split
    · exact .refl c
    · exact ⟨rfl, rfl, rfl, Banks.write_size _ _ _ _, Banks.write_bankSize _ _ _ _⟩
    · exact ⟨rfl, rfl, rfl, Banks.write_size _ _ _ _, Banks.write_bankSize _ _ _ _⟩
    · exact ⟨rfl, rfl, Controller.kind_writeClock _ _ _, rfl, rfl⟩
  · exact .refl c

/-- Where the controller finds the byte at an address below 0x8000. -/
def romPlace (c : Cartridge) (a : UInt16) : Nat :=
  c.controller.romBank a % c.rom.count * 0x4000 + a.toNat % 0x4000

/-- A byte below 0x8000 is the one that the controller finds in the image. -/
theorem Accepts.read_rom {image : Array UInt8} {c d : Cartridge} (accepts : Accepts image c)
    (make : SameMake c d) {a : UInt16} (low : a < 0x8000) :
    image[d.romPlace a]? = some (d.read a) := by
  obtain ⟨n, two, full⟩ := accepts.full
  have wide : 0 < c.rom.bankSize := by rw [accepts.bankSize]; decide
  have byte := Banks.getElem?_of_full full wide (by omega) (d.controller.romBank a)
    (a.toNat % 0x4000)
  -- The bank lies inside what was kept of the image, so its byte is the image's own.
  rw [accepts.bankSize, Nat.mod_mod, congrArg Banks.data accepts.rom, Array.getElem?_extract] at byte
  rw [read, if_pos low, romPlace, make.rom, ← byte, Banks.count_of_full full wide]
  split at byte
  · rw [if_pos ‹_›, Nat.zero_add]
  · cases byte

/-- Without a controller the image lies below 0x8000 as it is. -/
theorem Accepts.read_fixed {image : Array UInt8} {c : Cartridge} (accepts : Accepts image c)
    (fixed : c.controller = .fixed) {a : UInt16} (low : a < 0x8000) :
    image[a.toNat]? = some (c.read a) := by
  have byte := accepts.read_rom (.refl c) low
  have below : a.toNat < 0x8000 := UInt16.lt_iff_toNat_lt.mp low
  have two := accepts.two_le_count
  have bank : a.toNat / 0x4000 % c.rom.count = a.toNat / 0x4000 := Nat.mod_eq_of_lt (by omega)
  rwa [romPlace, fixed, Controller.romBank, bank, Nat.mul_comm, Nat.div_add_mod] at byte

/-- The header of an image that is given byte by byte. -/
theorem header_ofFn (byte : Nat → UInt8) {n : Nat} (long : 0x150 ≤ n) : ∃ title,
    Header.ofImage (Array.ofFn fun i : Fin n => byte i) =
      .ok ⟨title, byte 0x147, byte 0x148, byte 0x149, byte 0x14D⟩ := by
  have large : ¬(Array.ofFn fun i : Fin n => byte i).size < 0x150 := by
    rw [Array.size_ofFn]
    exact Nat.not_lt.mpr long
  refine ⟨Header.titleOf ((Array.ofFn fun i : Fin n => byte i).extract 0x134 0x144).toList, ?_⟩
  unfold Header.ofImage
  rw [dif_neg large]
  simp only [Array.getElem_ofFn]

/-- An image of two banks with no controller and no RAM lies below 0x8000 as it is. -/
theorem exists_plain (byte : Nat → UInt8) (kind : byte 0x147 = 0) (rom : byte 0x148 = 0)
    (ram : byte 0x149 = 0) :
    ∃ c, ofImage (Array.ofFn fun i : Fin 0x8000 => byte i) = .ok c ∧
      ∀ a : UInt16, a < 0x8000 → c.read a = byte a.toNat := by
  have size : (Array.ofFn fun i : Fin 0x8000 => byte i).size = 0x8000 := Array.size_ofFn
  obtain ⟨title, header⟩ := header_ofFn byte (show 0x150 ≤ 0x8000 by decide)
  rw [kind, rom, ram] at header
  obtain ⟨c, accepted, controller, _⟩ :=
    exists_ofImage header rfl rfl rfl (Nat.le_of_eq size.symm)
  refine ⟨c, accepted, fun a low => ?_⟩
  have inside : a.toNat < 0x8000 := UInt16.lt_iff_toNat_lt.mp low
  have read := (accepts_of_ofImage accepted).read_fixed controller low
  rw [Array.getElem?_ofFn, dif_pos inside, Option.some.injEq] at read
  exact read.symm

/-- A cartridge from a file is one of the image, but for what its RAM holds. -/
theorem load_eq_ok {disk : Disk} {name : String} {d : Cartridge} (loaded : load disk name = .ok d) :
    ∃ image c, disk.read? name = some image ∧ ofImage image = .ok c ∧ SameMake c d ∧
      d.controller = c.controller := by
  unfold load at loaded
  split at loaded
  · cases loaded
  rename_i image found
  split at loaded
  · cases loaded
  rename_i c accepted
  refine ⟨image, c, found, accepted, ?_⟩
  split at loaded
  · dsimp only at loaded
    split at loaded
    · cases loaded
      exact ⟨⟨rfl, rfl, rfl, by simp [restore], rfl⟩, rfl⟩
    · cases loaded
      exact ⟨⟨rfl, rfl, rfl, rfl, rfl⟩, rfl⟩
  · cases loaded
    exact ⟨.refl d, rfl⟩

end Cartridge

end DotMatrix
