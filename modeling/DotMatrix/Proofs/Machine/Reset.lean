import DotMatrix.Proofs.Machine.Reach

namespace DotMatrix

/-- Whether the controller may move the low half of the ROM. -/
def Controller.wide : Controller → Bool
  | mbc1 m => m.wide
  | _ => false

/-- While it may not move, the low half is the first bank. -/
theorem Controller.romBank_of_lt {c : Controller} {a : UInt16} (narrow : c.wide = false)
    (low : a < 0x4000) : c.romBank a = 0 := by
  cases c with
  | fixed =>
    have below : a.toNat < 0x4000 := UInt16.lt_iff_toNat_lt.mp low
    exact Nat.div_eq_of_lt below
  | mbc1 m =>
    change m.wide = false at narrow
    simp [romBank, Mbc1.romBank, low, narrow]
  | mbc2 m => exact if_pos low
  | mbc3 m => exact if_pos low
  | mbc5 m => exact if_pos low

namespace Cartridge

variable {image : Array UInt8} {c d : Cartridge}

theorem Accepts.wide (accepts : Accepts image c) : c.controller.wide = false := by
  rw [accepts.controller]
  cases c.controller.kind <;> rfl

/-- The low half never moves unless the controller may move it, and without one nothing moves. -/
theorem SameMake.romPlace_eq (make : SameMake c d) (accepts : Accepts image c) {a : UInt16}
    (steady : c.controller = .fixed ∨ a < 0x4000 ∧ d.controller.wide = false) :
    d.romPlace a = c.romPlace a := by
  have bank : d.controller.romBank a = c.controller.romBank a := by
    rcases steady with fixed | ⟨low, narrow⟩
    · have kind := make.kind
      rw [fixed] at kind ⊢
      cases same : d.controller with
      | fixed => rfl
      | _ => rw [same] at kind; cases kind
    · rw [Controller.romBank_of_lt narrow low, Controller.romBank_of_lt accepts.wide low]
  rw [romPlace, romPlace, bank, make.rom]

end Cartridge

namespace Machine

theorem Reach.cartridge {c₀ c : Cartridge} {revision : Revision} {m : Machine}
    (reach : Reach (boot revision (some c₀)) m) (make : c.SameMake c₀) :
    ∃ d, m.bus.cartridge = some d ∧ c.SameMake d :=
  reach.keeps ⟨c₀, rfl, make⟩ (fun next before => next.sameMake before) (fun _ before => before)
    fun before => before

/-- A machine from a file is a new one with a cartridge of that make. -/
theorem load_eq_ok {disk : Disk} {name : String} {m : Machine} (loaded : load disk name = .ok m) :
    ∃ image c c₀, disk.read? name = some image ∧ Cartridge.ofImage image = .ok c ∧
      c.SameMake c₀ ∧ m = boot .standard (some c₀) := by
  unfold load at loaded
  cases inserted : Cartridge.load disk name with
  | error => simp [inserted, Except.map] at loaded
  | ok c₀ =>
    simp only [inserted, Except.map, Except.ok.injEq] at loaded
    obtain ⟨image, c, found, accepted, make, _⟩ := Cartridge.load_eq_ok inserted
    exact ⟨image, c, c₀, found, accepted, make, loaded.symm⟩

/-- A reset leads to where a new machine with the same image starts, except that the cartridge stays
as it is, its RAM and the registers of its controller included. A byte below 0x8000 is the same as
on the new machine exactly if the image has it at the place that the controller now selects. This is
always so without a controller, and in the low half unless the controller has moved it. -/
theorem Reach.reset_eq_boot {image : Array UInt8} {c₀ c : Cartridge} {revision : Revision}
    {m : Machine} (accepted : Cartridge.ofImage image = .ok c) (make : c.SameMake c₀)
    (reach : Reach (boot revision (some c₀)) m) :
    ∃ d, m.bus.cartridge = some d ∧
      m.reset = { boot revision (some c) with
        bus := { (boot revision (some c)).bus with cartridge := some d, sound := m.bus.sound }
        joypad := m.joypad
        display := m.display } ∧
      ∀ a < 0x8000,
        image[d.romPlace a]? = some (m.reset.bus.read a) ∧
        (m.reset.bus.read a = (boot revision (some c)).bus.read a ↔
          image[d.romPlace a]? = image[c.romPlace a]?) ∧
        (c.controller = .fixed ∨ a < 0x4000 ∧ d.controller.wide = false →
          m.reset.bus.read a = (boot revision (some c)).bus.read a) := by
  have accepts := Cartridge.accepts_of_ofImage accepted
  obtain ⟨d, inserted, made⟩ := reach.cartridge make
  refine ⟨d, inserted, ?_, fun a low => ?_⟩
  · have same : m.revision = revision := reach.revision
    simp only [Machine.reset, Bus.reset, same, inserted]
    rfl
  have now : m.reset.bus.read a = d.read a := Bus.read_of_lt inserted low
  have new : (boot revision (some c)).bus.read a = c.read a := Bus.read_of_lt rfl low
  have place := accepts.read_rom made low
  have first := accepts.read_rom (.refl c) low
  have same : d.read a = c.read a ↔ image[d.romPlace a]? = image[c.romPlace a]? := by
    rw [place, first, Option.some.injEq]
  rw [now, new]
  refine ⟨place, same, fun steady => same.mpr ?_⟩
  rw [made.romPlace_eq accepts steady]

/-- For the controller with two bank fields, 64 banks filled with their numbers. -/
def bankedImage : Array UInt8 := Array.ofFn fun i : Fin 0x100000 =>
  if i.val = 0x147 then 0x01 else if i.val = 0x148 then 0x05 else UInt8.ofNat (i.val / 0x4000)

/-- The image is accepted with more banks than one field selects. -/
theorem exists_banked : ∃ c, Cartridge.ofImage bankedImage = .ok c ∧
    c.controller = .mbc1 .initial ∧ c.rom.count = 64 := by
  have size : bankedImage.size = 0x100000 := Array.size_ofFn
  obtain ⟨title, header⟩ := Cartridge.header_ofFn
    (fun n => if n = 0x147 then 0x01 else if n = 0x148 then 0x05 else UInt8.ofNat (n / 0x4000))
    (show 0x150 ≤ 0x100000 by decide)
  obtain ⟨c, accepted, controller, romSize⟩ :=
    Cartridge.exists_ofImage header rfl rfl rfl (Nat.le_of_eq size.symm)
  have count := (Cartridge.accepts_of_ofImage accepted).count_mul
  have whole : c.rom.data.size = 0x100000 := romSize
  exact ⟨c, accepted, controller, by omega⟩

/-- The first machine after its program has moved both halves of the ROM by 32 banks. -/
def moved (c : Cartridge) : Machine :=
  { boot .standard (some c) with
    bus := ((boot .standard (some c)).bus.write 0x4000 1).write 0x6000 1 }

theorem moved_reach (c : Cartridge) : Reach (boot .standard (some c)) (moved c) := by
  have first := Reach.access (m := boot .standard (some c)) .start (.write .program 0x4000 1)
  have second := first.access (.write .program 0x6000 1)
  exact second

theorem moved_controller {c : Cartridge} (initial : c.controller = .mbc1 .initial) :
    ((c.write 0x4000 1).write 0x6000 1).controller = .mbc1 ⟨false, 1, 1, true⟩ := by
  have written : ((c.write 0x4000 1).write 0x6000 1).controller =
      (c.controller.write 0x4000 1).write 0x6000 1 := rfl
  rw [written, initial]
  decide

/-- The reset leaves the program's first bytes moved. -/
theorem reset_moved : ∃ c, Cartridge.ofImage bankedImage = .ok c ∧
    Reach (boot .standard (some c)) (moved c) ∧
    (boot .standard (some c)).bus.read 0x100 = 0 ∧ (moved c).reset.bus.read 0x100 = 32 := by
  obtain ⟨c, accepted, initial, count⟩ := exists_banked
  have accepts := Cartridge.accepts_of_ofImage accepted
  have low : (0x100 : UInt16) < 0x8000 := by decide
  have make := (c.sameMake_write 0x4000 1).trans (Cartridge.sameMake_write _ 0x6000 1)
  have before := accepts.read_rom (.refl c) low
  have after := accepts.read_rom make low
  rw [Cartridge.romPlace, initial, count] at before
  rw [Cartridge.romPlace, moved_controller initial, make.rom, count] at after
  rw [bankedImage, Array.getElem?_ofFn, dif_pos (by decide), Option.some.injEq] at before after
  refine ⟨c, accepted, moved_reach c, ?_, ?_⟩
  · rw [Bus.read_of_lt rfl low, ← before]
    decide
  · have kept : (moved c).reset.bus.cartridge = some ((c.write 0x4000 1).write 0x6000 1) := rfl
    rw [Bus.read_of_lt kept low, ← after]
    decide

/-- Since the low half has moved, the byte after a reset is that of the bank selected before. -/
theorem reset_moved_eq_boot : ∃ c d, Cartridge.ofImage bankedImage = .ok c ∧
    (moved c).bus.cartridge = some d ∧ (moved c).reset.cpu = .boot .standard ∧
    bankedImage[d.romPlace 0x100]? = some ((moved c).reset.bus.read 0x100) := by
  obtain ⟨c, accepted, _⟩ := exists_banked
  obtain ⟨d, inserted, same, bytes⟩ := Reach.reset_eq_boot accepted (.refl c) (moved_reach c)
  exact ⟨c, d, accepted, inserted, congrArg Machine.cpu same, (bytes 0x100 (by decide)).1⟩

end Machine

end DotMatrix
