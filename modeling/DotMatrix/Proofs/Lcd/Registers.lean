import DotMatrix.Proofs.Lcd.Slicing

namespace DotMatrix

namespace Bus

theorem read_ly (s : Bus) : s.read 0xFF44 = s.registers.stored .ly := by
  have cell : Cell.ofAddress 0xFF44 = .register .ly := by decide
  have closed : Register.ly.openBits = 0 := by decide
  rw [read_register cell, Registers.visible, closed, UInt8.or_zero]

theorem read_stat_mode (s : Bus) : s.read 0xFF41 &&& 3 = s.registers.stored .stat &&& 3 := by
  have cell : Cell.ofAddress 0xFF41 = .register .stat := by decide
  have above : Register.stat.openBits &&& 3 = 0 := by decide
  rw [read_register cell, Registers.visible, or_and_distrib, above, UInt8.or_zero]

/-- No write of the program reaches the line register. -/
theorem write_ly (s : Bus) (a : UInt16) (v : UInt8) :
    (s.write a v).registers.stored .ly = s.registers.stored .ly := by
  have fixed := s.write_fixed a v .ly
  have whole : ~~~Register.ly.programBits = -1 := by decide
  rwa [Registers.fixed, Registers.fixed, whole, UInt8.and_neg_one, UInt8.and_neg_one] at fixed

theorem write_stat_mode (s : Bus) (a : UInt16) (v : UInt8) :
    (s.write a v).registers.stored .stat &&& 3 = s.registers.stored .stat &&& 3 := by
  have fixed := congrArg (· &&& 3) (s.write_fixed a v .stat)
  have inside : ~~~Register.stat.programBits &&& 3 = 3 := by decide
  simpa only [Registers.fixed, UInt8.and_assoc, inside] using fixed

end Bus

namespace Panel

/-- A published status has the code of the mode in its two lowest bits. -/
theorem Published.mode {p : Panel} (published : p.Published) :
    p.bus.registers.stored .stat &&& 3 = p.lcd.mode.code := by
  have coincidence : (if p.lcd.coincidence then (0x04 : UInt8) else 0) &&& 3 = 0 := by
    split <;> rfl
  have mode : p.lcd.mode.code &&& 3 = p.lcd.mode.code := by
    cases p.lcd.mode <;> rfl
  have sources : p.bus.registers.stored .stat &&& 0x78 &&& 3 = 0 := by
    rw [UInt8.and_assoc]
    exact UInt8.and_zero
  rw [published.status, shownStatus, or_and_distrib, or_and_distrib, coincidence, mode, sources,
    UInt8.or_zero, UInt8.zero_or]

/-- What the registers tell of an LCD that has been on before, or has not. Before it is on for the
first time, it stands in the scan, and the status register does not say so. -/
structure Shows (lit : Bool) (p : Panel) : Prop where
  line : p.bus.registers.stored .ly = UInt8.ofNat p.lcd.line
  mode : lit = true → p.bus.registers.stored .stat &&& 3 = p.lcd.mode.code
  rest : lit = true → p.lcd.on = false → p.lcd.line = 0 ∧ p.lcd.mode = .rest
  fresh : lit = false → p.lcd = .initial ∧ p.bus.registers.stored .stat &&& 3 = 0

theorem Published.shows {p : Panel} (published : p.Published)
    (rest : p.lcd.on = false → p.lcd.line = 0 ∧ p.lcd.mode = .rest) : p.Shows true where
  line := published.line
  mode := fun _ => published.mode
  rest := fun _ => rest
  fresh := fun dark => absurd dark (by decide)

/-- A slice keeps the registers telling, and lights an LCD that is wanted. -/
theorem Shows.slice {lit : Bool} {p : Panel} (shows : p.Shows lit) (n : Nat) :
    (p.slice n).Shows (lit || p.wanted) := by
  cases wanted : p.wanted with
  | true =>
    have on : (p.slice n).lcd.on = true := slice_on wanted
    rw [Bool.or_true]
    refine Published.shows ?_ fun off => absurd (on.symm.trans off) (by decide)
    rw [slice_of_wanted wanted]
    exact raiseStatus_published (publish_published _)
  | false =>
    rw [Bool.or_false, slice_of_unwanted wanted]
    split
    · rename_i on
      cases lit with
      | true => exact (publish_published _).shows fun _ => ⟨rfl, rfl⟩
      | false =>
        rw [(shows.fresh rfl).1] at on
        contradiction
    · exact shows

theorem Shows.step {lit : Bool} {p : Panel} {n : Nat} (shows : p.Shows lit) (positive : 1 ≤ n) :
    (p.step n).Shows (lit || p.wanted) := by
  refine And.right (step_of_first
    (P := fun q => q.wanted = p.wanted ∧ q.Shows (lit || p.wanted)) positive
    (fun k _ => ⟨slice_wanted k p, shows.slice k⟩) ?_)
  rintro q k - ⟨same, shows⟩
  refine ⟨(slice_wanted k q).trans same, ?_⟩
  have next := shows.slice k
  rwa [same, Bool.or_assoc, Bool.or_self] at next

end Panel

namespace Lcd

/-- The LCD since power-on, with the dots that it has run and what the program has written between
them. Bit 7 of the control register was set in one of the steps, and it was `lit`, or in none. -/
inductive Driven (revision : Revision) (cartridge : Option Cartridge) : Bool → Lcd → Bus → Prop
  | boot : Driven revision cartridge false .initial (.boot revision cartridge)
  | dots {lit : Bool} {lcd : Lcd} {bus : Bus} (n : Nat) : Driven revision cartridge lit lcd bus →
      1 ≤ n → Driven revision cartridge (lit || bus.lcdWanted) (lcd.step n bus).lcd
        (lcd.step n bus).bus
  | write {lit : Bool} {lcd : Lcd} {bus : Bus} (a : UInt16) (v : UInt8) :
      Driven revision cartridge lit lcd bus → Driven revision cartridge lit lcd (bus.write a v)

variable {revision : Revision} {cartridge : Option Cartridge} {lit : Bool} {lcd : Lcd} {bus : Bus}
  {n : Nat}

theorem Driven.reach (driven : Driven revision cartridge lit lcd bus) : lcd.Reach bus := by
  induction driven with
  | boot => exact .start _
  | dots n _ _ ih => exact .dots n ih
  | write _ _ _ ih => exact .other _ ih

/-- From power-on the registers tell where the LCD stands, whatever the program writes. -/
theorem Driven.shows (driven : Driven revision cartridge lit lcd bus) (finished : Bool) :
    Panel.Shows lit ⟨lcd, bus, finished⟩ := by
  induction driven generalizing finished with
  | boot =>
    have line : Registers.boot.stored .ly = 0 := by decide
    have mode : Registers.boot.stored .stat &&& 3 = 0 := by decide
    exact ⟨line, fun lit => absurd lit (by decide), fun lit => absurd lit (by decide),
      fun _ => ⟨rfl, mode⟩⟩
  | dots n _ positive ih =>
    obtain ⟨line, mode, rest, fresh⟩ := (ih false).step positive
    exact ⟨line, mode, rest, fresh⟩
  | write a v _ ih =>
    obtain ⟨line, mode, rest, fresh⟩ := ih finished
    refine ⟨(Bus.write_ly _ a v).trans line, fun lit => ?_, rest, fun dark => ?_⟩
    · exact (Bus.write_stat_mode _ a v).trans (mode lit)
    · exact ⟨(fresh dark).1, (Bus.write_stat_mode _ a v).trans (fresh dark).2⟩

/-- After every step the line is shown as it is, and the mode too from the first step on in which
the program has the LCD switched on. Whenever it has it switched off, line zero and mode zero are
shown, and the LCD stands in line zero. It stands in mode zero only if it has been on: before its
first dot it is in the scan. -/
theorem Driven.registers_agree (driven : Driven revision cartridge lit lcd bus) (positive : 1 ≤ n) :
    let p := lcd.step n bus
    p.bus.read 0xFF44 = UInt8.ofNat p.lcd.line ∧
    (p.bus.read 0xFF41 &&& 3 = p.lcd.mode.code ↔ lit = true ∨ bus.lcdWanted = true) ∧
    (bus.lcdWanted = false → p.bus.read 0xFF44 = 0 ∧ p.lcd.line = 0 ∧
      p.bus.read 0xFF41 &&& 3 = 0 ∧ (p.lcd.mode = .rest ↔ lit = true)) := by
  intro p
  have shows : p.Shows (lit || bus.lcdWanted) := (driven.shows false).step positive
  rw [Bus.read_ly, Bus.read_stat_mode]
  refine ⟨shows.line, ?_, fun off => ?_⟩
  · constructor
    · intro agrees
      by_contra dark
      obtain ⟨fresh, zero⟩ := shows.fresh (by simpa using dark)
      rw [fresh, zero] at agrees
      exact absurd agrees (by decide)
    · exact fun lit => shows.mode (by simpa using lit)
  rw [off, Bool.or_false] at shows
  have line := shows.line
  cases lit with
  | true =>
    have dark : p.lcd.on = false := (driven.reach.step_on positive).trans off
    obtain ⟨zero, rest⟩ := shows.rest rfl dark
    rw [zero] at line
    refine ⟨line, zero, ?_, by simp [rest]⟩
    rw [shows.mode rfl, rest]
    rfl
  | false =>
    obtain ⟨fresh, mode⟩ := shows.fresh rfl
    rw [fresh] at line ⊢
    exact ⟨line, rfl, mode, by decide⟩

/-- The program switches the LCD off before its first dot. The status register shows mode zero, and
the LCD stands in the scan. -/
theorem registers_disagree_before_first_dot :
    let bus := (Bus.boot .standard none).write 0xFF40 0x11
    let p := initial.step 4 bus
    Driven .standard none false initial bus ∧ bus.lcdWanted = false ∧
      p.bus.read 0xFF41 &&& 3 = 0 ∧ p.lcd.mode.code = 2 :=
  ⟨.write 0xFF40 0x11 .boot, by decide, by decide, by decide⟩

/-- Switched off after its first dots, it shows what it is. -/
theorem registers_agree_after_first_dots :
    let lit := initial.step 4 (.boot .standard none)
    let bus := lit.bus.write 0xFF40 0x11
    let p := lit.lcd.step 4 bus
    bus.lcdWanted = false ∧ p.bus.read 0xFF44 = 0 ∧ p.bus.read 0xFF41 &&& 3 = p.lcd.mode.code ∧
      p.lcd.mode = .rest := by
  intro lit bus p
  have first : Driven .standard none true lit.lcd lit.bus := .dots 4 .boot (by decide)
  have off : bus.lcdWanted = false := by decide
  obtain ⟨-, agrees, dark⟩ := (first.write 0xFF40 0x11).registers_agree (n := 4) (by decide)
  obtain ⟨line, -, -, rest⟩ := dark off
  exact ⟨off, line, agrees.mpr (Or.inl rfl), rest.mpr rfl⟩

end Lcd

end DotMatrix
