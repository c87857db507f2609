import DotMatrix.Proofs.Cartridge.Saving
import DotMatrix.Proofs.Machine.Reset

namespace DotMatrix.Machine

variable {c l : Cartridge} {d d' d₀ : Disk} {m m₀ : Machine} {name : String} {image : Array UInt8}

/-- What a machine and the files come to: the machine does all that it can, and at any time the
cartridge is saved. -/
inductive Used (m₀ : Machine) (d₀ : Disk) : Machine → Disk → Prop
  | start : Used m₀ d₀ m₀ d₀
  | run {m m' : Machine} {d : Disk} : Used m₀ d₀ m d → Reach m m' → Used m₀ d₀ m' d
  | save {m : Machine} {d d' : Disk} : Used m₀ d₀ m d → m.save? d = some d' → Used m₀ d₀ m d'

theorem save?_of_inserted (inserted : m.bus.cartridge = some c) (d : Disk) :
    m.save? d = c.save? d := by
  simp only [save?, inserted]

/-- All that a machine does to its cartridge is to write to it. -/
theorem Used.cartridge (used : Used m₀ d₀ m d) (inserted : m₀.bus.cartridge = some l) :
    ∃ c, m.bus.cartridge = some c ∧ l.Used d₀ c d := by
  induction used with
  | start => exact ⟨l, inserted, .start⟩
  | @run m m' d before reach ih =>
    refine reach.keeps (P := fun s => ∃ c, s.cartridge = some c ∧ l.Used d₀ c d) ih ?_
      (fun _ before => before) fun before => before
    rintro s t access ⟨c, now, known⟩
    rcases access.cartridge with same | ⟨a, v, written⟩
    · exact ⟨c, same.trans now, known⟩
    · rw [now] at written
      exact ⟨c.write a v, written, known.write a v⟩
  | @save m d d' before done ih =>
    obtain ⟨c, now, known⟩ := ih
    rw [save?_of_inserted now] at done
    exact ⟨c, now, known.save done⟩

theorem load_of_cartridge (loaded : Cartridge.load d name = .ok c) :
    load d name = .ok (boot .standard (some c)) := by
  rw [load, loaded]
  rfl

theorem load_of_refused {reason : ImageError} (found : d.read? name = some image)
    (refused : Cartridge.ofImage image = .error reason) :
    load d name = .error (.rejected reason) := by
  simp only [load, Cartridge.load, found, refused, Except.map]

/-- A file has the image as before, and gives the ROM as before. -/
structure Intact (image : Array UInt8) (rom : Banks) (name : String) (d : Disk) : Prop where
  file : d.read? name = some image
  loads : ∃ c, Cartridge.load d name = .ok c ∧ load d name = .ok (boot .standard (some c)) ∧
    c.rom = rom

/-- A file with an accepted image is intact. -/
theorem intact_of_accepted (found : d.read? name = some image)
    (accepted : Cartridge.ofImage image = .ok c) : Intact image c.rom name d where
  file := found
  loads := by
    have loaded := Cartridge.load_of_accepted found accepted
    exact ⟨_, loaded, load_of_cartridge loaded, (c.sameMake_fromDisk d name).rom⟩

/-- Whatever is done with a cartridge or a machine from a file and however often it is saved, the
file is intact, unless it has the name of the file that keeps the RAM. If it has, and there is RAM
to keep, then saving leaves nothing but the RAM in it. -/
theorem saving_spares_file (found : d.read? name = some image)
    (accepted : Cartridge.ofImage image = .ok c) :
    ∃ l, Cartridge.load d name = .ok l ∧ load d name = .ok (boot .standard (some l)) ∧
      ((c.Backed → saveNameOf name ≠ name) →
        (∀ l' d', l.Used d l' d' → Intact image c.rom name d') ∧
        ∀ m d', Used (boot .standard (some l)) d m d' → Intact image c.rom name d') ∧
      (c.Backed → saveNameOf name = name →
        (∀ l' d' d'', l.Used d l' d' → l'.save? d' = some d'' →
          d''.read? name = some l'.ram.data) ∧
        ∀ m d' d'', Used (boot .standard (some l)) d m d' → m.save? d' = some d'' →
          ∃ l', m.bus.cartridge = some l' ∧ d''.read? name = some l'.ram.data) := by
  have accepts := Cartridge.accepts_of_ofImage accepted
  have loaded := Cartridge.load_of_accepted found accepted
  have named := accepts.fromDisk_saveName d name
  refine ⟨c.fromDisk d name, loaded, load_of_cartridge loaded, fun apart => ?_,
    fun backed same => ?_⟩
  · have other : (c.fromDisk d name).saveName ≠ some name := by
      rw [named]
      split
      · exact fun same => apart ‹_› (Option.some.inj same)
      · exact nofun
    have kept (l' : Cartridge) (d' : Disk) (used : (c.fromDisk d name).Used d l' d') :
        Intact image c.rom name d' :=
      intact_of_accepted ((used.reads other).trans found) accepted
    refine ⟨kept, fun m d' used => ?_⟩
    obtain ⟨l', -, known⟩ := used.cartridge rfl
    exact kept l' d' known
  · rw [if_pos backed, same] at named
    have saved (l' : Cartridge) (d' d'' : Disk) (used : (c.fromDisk d name).Used d l' d')
        (done : l'.save? d' = some d'') : d''.read? name = some l'.ram.data := by
      have make := (c.sameMake_fromDisk d name).trans used.sameMake
      rw [Cartridge.save?_own (used.saveName.trans named) (make.isEmpty.trans backed.2) done,
        if_pos rfl]
    refine ⟨saved, fun m d' d'' used done => ?_⟩
    obtain ⟨l', now, known⟩ := used.cartridge rfl
    rw [save?_of_inserted now] at done
    exact ⟨l', now, saved l' d' d'' known done⟩

open Cartridge (batteryByte batteryImage exists_battery)

/-- One name has another ending, and one has the ending of the file that keeps the RAM. -/
theorem saving_spares_game : ∃ l d' l₁ d₁,
    Cartridge.load [("game.gb", batteryImage)] "game.gb" = .ok l ∧
    l.save? [("game.gb", batteryImage)] = some d' ∧ d'.read? "game.gb" = some batteryImage ∧
    Cartridge.load [("game.sav", batteryImage)] "game.sav" = .ok l₁ ∧
    l₁.save? [("game.sav", batteryImage)] = some d₁ ∧ d₁.read? "game.sav" = some l₁.ram.data := by
  obtain ⟨c, accepted, backed, _⟩ := exists_battery
  have accepts := Cartridge.accepts_of_ofImage accepted
  have other : saveNameOf "game.gb" = "game.sav" := by decide +kernel
  have same : saveNameOf "game.sav" = "game.sav" := by decide +kernel
  have valid : isFileName "game.sav" = true := by decide +kernel
  have found : Disk.read? [("game.gb", batteryImage)] "game.gb" = some batteryImage := rfl
  have found₁ : Disk.read? [("game.sav", batteryImage)] "game.sav" = some batteryImage := rfl
  obtain ⟨l, loaded, _, spared, _⟩ := saving_spares_file found accepted
  obtain ⟨l₁, loaded₁, _, _, lost⟩ := saving_spares_file found₁ accepted
  obtain rfl := Except.ok.inj ((Cartridge.load_of_accepted found accepted).symm.trans loaded)
  obtain rfl := Except.ok.inj ((Cartridge.load_of_accepted found₁ accepted).symm.trans loaded₁)
  obtain ⟨d', done, _⟩ := accepts.save_writeAll backed (by rw [other, valid]) [] _
  obtain ⟨d₁, done₁, _⟩ := accepts.save_writeAll backed (by rw [same, valid]) [] _
  exact ⟨_, d', _, d₁, loaded, done,
    ((spared fun _ => by rw [other]; decide).1 _ _ (.save .start done)).file, loaded₁, done₁,
    (lost backed same).1 _ _ _ .start done₁⟩

/-- With that ending the RAM is read from the ROM itself, from its beginning. -/
theorem ram_of_same (accepted : Cartridge.ofImage batteryImage = .ok c) (backed : c.Backed)
    (size : c.ram.data.size = 0x2000) (found : d.read? name = some batteryImage)
    (same : saveNameOf name = name) :
    (c.fromDisk d name).ram.data = Array.ofFn fun i : Fin 0x2000 => batteryByte i := by
  have accepts := Cartridge.accepts_of_ofImage accepted
  refine Array.ext_getElem? fun i => ?_
  rw [Cartridge.fromDisk_ram backed, accepts.restored, size, same, found, Option.getD_some,
    Array.getElem?_ofFn]
  split
  · rename_i within
    rw [batteryImage, Array.getD_eq_getD_getElem?, Array.getElem?_ofFn, dif_pos (by omega)]
    rfl
  · rfl

/-- A ROM whose name has that ending is gone when its RAM is saved. -/
theorem save_over_rom : ∃ m d', load [("game.sav", batteryImage)] "game.sav" = .ok m ∧
    m.save? [("game.sav", batteryImage)] = some d' ∧ d'.read? "game.sav" ≠ some batteryImage ∧
    load d' "game.sav" = .error (.rejected (.sizeMismatch 0x8000 0x2000)) := by
  obtain ⟨c, accepted, backed, size⟩ := exists_battery
  have same : saveNameOf "game.sav" = "game.sav" :=
    saveNameOf_eq_self.mpr (.inr ⟨"game", by decide, by decide, by decide⟩)
  have valid : isFileName "game.sav" = true := by decide +kernel
  have found : Disk.read? [("game.sav", batteryImage)] "game.sav" = some batteryImage := rfl
  have loaded := Cartridge.load_of_accepted found accepted
  obtain ⟨d', done, files⟩ := (Cartridge.accepts_of_ofImage accepted).save_writeAll
    (d := [("game.sav", batteryImage)]) backed (by rw [same, valid]) []
    [("game.sav", batteryImage)]
  have file : d'.read? "game.sav" = some (Array.ofFn fun i : Fin 0x2000 => batteryByte i) := by
    rw [files, if_pos same.symm]
    exact congrArg some (ram_of_same accepted backed size found same)
  refine ⟨_, d', load_of_cartridge loaded, (save?_of_inserted rfl _).trans done, ?_, ?_⟩
  · rw [file]
    intro equal
    have sizes := congrArg Array.size (Option.some.inj equal)
    rw [batteryImage, Array.size_ofFn, Array.size_ofFn] at sizes
    exact absurd sizes (by decide)
  · exact load_of_refused file Cartridge.ofImage_battery_cut

end DotMatrix.Machine
