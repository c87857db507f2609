import DotMatrix.Proofs.Cartridge.Mapping

namespace DotMatrix

namespace Banks

theorem zeros_getElem? (size bankSize i : Nat) :
    (zeros size bankSize).data[i]? = if i < size then some 0 else none :=
  Array.getElem?_replicate

end Banks

/-- An ending without a dot is what a name loses, if there is anything before it. -/
theorem stemOf_append {stem ending : List Char} (nonempty : stem ≠ []) (plain : '.' ∉ ending) :
    stemOf (stem ++ '.' :: ending) = stem := by
  have skipped : (stem ++ '.' :: ending).reverse.dropWhile (· != '.') = '.' :: stem.reverse := by
    rw [List.reverse_append, List.reverse_cons, List.append_assoc, List.dropWhile_append_of_pos]
    · simp
    · intro ch member
      have distinct : ch ≠ '.' := fun same => plain (same ▸ List.mem_reverse.mp member)
      simpa using distinct
  unfold stemOf
  rw [skipped]
  split
  · rename_i before shape
    rw [← (List.cons.inj shape).2, List.reverse_reverse]
  · rename_i other
    obtain ⟨last, rest, shape⟩ := List.exists_cons_of_ne_nil (List.reverse_ne_nil_iff.mpr nonempty)
    exact absurd (congrArg ('.' :: ·) shape) (other _ _ _)

/-- The names that are their own save names. -/
theorem saveNameOf_eq_self {name : String} : saveNameOf name = name ↔
    name = ".." ∨ ∃ stem, stem ≠ "" ∧ stem ≠ "." ∧ name = stem ++ ".sav" := by
  constructor
  · intro same
    unfold saveNameOf at same
    dsimp only at same
    split at same
    · exact .inl same.symm
    · rename_i other
      refine .inr ⟨.ofList (stemOf name.toList), fun nothing => ?_, fun dot => ?_, same.symm⟩
      · rw [nothing] at same
        rw [← same] at nothing
        exact absurd nothing (by decide +kernel)
      · exact other (String.ofList_injective dot)
  · rintro (rfl | ⟨stem, nonempty, other, rfl⟩)
    · decide +kernel
    · have list : (stem ++ ".sav").toList = stem.toList ++ '.' :: ['s', 'a', 'v'] :=
        String.toList_append
      have stemmed : stemOf (stem ++ ".sav").toList = stem.toList := by
        rw [list, stemOf_append _ (by decide)]
        exact fun nothing => nonempty (String.toList_eq_nil_iff.mp nothing)
      have plain : stem.toList ≠ ['.'] := fun dot => other (String.toList_injective dot)
      rw [saveNameOf, stemmed, if_neg plain, String.ofList_toList]

namespace Cartridge

variable {c : Cartridge} {d d' : Disk} {name other : String} {image saved : Array UInt8}

/-- The file fills RAM from the start, and what it is too short for stays. -/
theorem restore_getElem? (ram : Banks) (saved : Array UInt8) (i : Nat) :
    (restore ram saved).data[i]? = ram.data[i]?.map fun old => saved.getD i old := by
  simp [restore]

theorem restore_eq {ram : Banks} {bytes : Array UInt8}
    (same : ∀ i : Nat, (restore ram saved).data[i]? = bytes[i]?) :
    restore ram saved = ⟨bytes, ram.bankSize⟩ :=
  congrArg (Banks.mk · ram.bankSize) (Array.ext_getElem? same)

theorem restore_empty (ram : Banks) : restore ram #[] = ram := by
  have same : restore ram #[] = ⟨ram.data, ram.bankSize⟩ := restore_eq fun i => by
    simp [restore_getElem?]
  exact same

/-- A file as long as the RAM leaves nothing of what was there before. -/
theorem restore_of_size {ram : Banks} (whole : saved.size = ram.data.size) :
    restore ram saved = ⟨saved, ram.bankSize⟩ := by
  refine restore_eq fun i => ?_
  rw [restore_getElem?]
  by_cases within : i < ram.data.size
  · simp [within, whole]
  · simp [within, whole]

/-- There is RAM, and it outlives the power supply. -/
def Backed (c : Cartridge) : Prop := c.header.hasBattery = true ∧ c.ram.isEmpty = false

instance (c : Cartridge) : Decidable c.Backed := inferInstanceAs (Decidable (_ ∧ _))

/-- A cartridge as it comes from a disk. -/
def fromDisk (c : Cartridge) (d : Disk) (name : String) : Cartridge :=
  if c.Backed then { c with
    ram := restore c.ram ((d.read? (saveNameOf name)).getD #[])
    saveName := some (saveNameOf name) }
  else c

/-- An image that is accepted is loaded. -/
theorem load_of_accepted (found : d.read? name = some image) (accepted : ofImage image = .ok c) :
    load d name = .ok (c.fromDisk d name) := by
  have backed : (c.header.hasBattery && !c.ram.isEmpty) = true ↔ c.Backed := by
    rw [Backed, Bool.and_eq_true, Bool.not_eq_true']
  simp only [load, found, accepted, backed, fromDisk]
  split
  · cases d.read? (saveNameOf name) with
    | none => simp only [Option.getD_none, restore_empty]
    | some saved => rfl
  · rfl

/-- RAM that a battery backs is restored from the file of its name, or left alone if there is none.
-/
theorem fromDisk_ram (backed : c.Backed) :
    (c.fromDisk d name).ram = restore c.ram ((d.read? (saveNameOf name)).getD #[]) := by
  rw [fromDisk, if_pos backed]

/-- Loading changes the contents of RAM and the name of its file. -/
theorem sameMake_fromDisk (c : Cartridge) (d : Disk) (name : String) :
    SameMake c (c.fromDisk d name) := by
  unfold fromDisk
  split
  · exact ⟨rfl, rfl, rfl, by simp [restore], rfl⟩
  · exact .refl c

theorem SameMake.isEmpty {e : Cartridge} (make : SameMake c e) : e.ram.isEmpty = c.ram.isEmpty := by
  simp only [Banks.isEmpty, Array.isEmpty, make.ramSize]

theorem write_saveName (c : Cartridge) (a : UInt16) (v : UInt8) :
    (c.write a v).saveName = c.saveName := by
  unfold write
  split
  · rfl
  split
  · split <;> rfl
  · rfl

theorem writeAll_saveName (c : Cartridge) (h : History UInt16) :
    (c.writeAll h).saveName = c.saveName := by
  induction h using List.reverseRecOn with
  | nil => rfl
  | append_singleton h w ih => rw [writeAll_concat, write_saveName, ih]

/-- A cartridge is saved to its own file and to no other. -/
theorem save?_reads (done : c.save? d = some d') (apart : c.saveName ≠ some other) :
    d'.read? other = d.read? other := by
  unfold save? at done
  split at done
  · rename_i own named
    split at done
    · cases done
      rfl
    · obtain ⟨-, rfl⟩ := Disk.write?_eq_some.mp done
      have distinct : other ≠ own := fun same => apart (same ▸ named)
      rw [Disk.read?_put, if_neg distinct]
  · cases done
    rfl

theorem save?_of_named (named : c.saveName = some name) (nonempty : c.ram.isEmpty = false)
    (d : Disk) : c.save? d = d.write? name c.ram.data := by
  simp only [save?, named, nonempty, Bool.false_eq_true, if_false]

/-- Its own file holds exactly the RAM then. -/
theorem save?_own (named : c.saveName = some name) (nonempty : c.ram.isEmpty = false)
    (done : c.save? d = some d') :
    d'.read? other = if other = name then some c.ram.data else d.read? other := by
  rw [save?_of_named named nonempty] at done
  rw [← (Disk.write?_eq_some.mp done).2, Disk.read?_put]

theorem save?_none (unnamed : c.saveName = none) (d : Disk) : c.save? d = some d := by
  simp only [save?, unnamed]

/-- What a cartridge and the files come to in use: it is written to, and at any time it is saved. -/
inductive Used (c₀ : Cartridge) (d₀ : Disk) : Cartridge → Disk → Prop
  | start : Used c₀ d₀ c₀ d₀
  | write {c : Cartridge} {d : Disk} (a : UInt16) (v : UInt8) : Used c₀ d₀ c d →
      Used c₀ d₀ (c.write a v) d
  | save {c : Cartridge} {d d' : Disk} : Used c₀ d₀ c d → c.save? d = some d' → Used c₀ d₀ c d'

namespace Used

variable {c₀ : Cartridge} {d₀ : Disk}

theorem saveName (used : Used c₀ d₀ c d) : c.saveName = c₀.saveName := by
  induction used with
  | start => rfl
  | write a v _ ih => rw [write_saveName, ih]
  | save _ _ ih => exact ih

theorem sameMake (used : Used c₀ d₀ c d) : SameMake c₀ c := by
  induction used with
  | start => exact .refl c₀
  | write a v _ ih => exact ih.trans (sameMake_write _ a v)
  | save _ _ ih => exact ih

/-- The only file that can change is the one that keeps the RAM. -/
theorem reads (used : Used c₀ d₀ c d) (apart : c₀.saveName ≠ some other) :
    d.read? other = d₀.read? other := by
  induction used with
  | start => rfl
  | write _ _ _ ih => exact ih
  | save before done ih => rw [save?_reads done (before.saveName ▸ apart), ih]

end Used

namespace Accepts

variable (accepts : Accepts image c)
include accepts

/-- Exactly the cartridges that a battery backs have a file. -/
theorem fromDisk_saveName (d : Disk) (name : String) :
    (c.fromDisk d name).saveName = if c.Backed then some (saveNameOf name) else none := by
  unfold fromDisk
  split
  · rfl
  · exact accepts.saveName

/-- After any writes the RAM is saved if a file can have the name. -/
theorem save_writeAll (backed : c.Backed) (valid : isFileName (saveNameOf name) = true)
    (h : History UInt16) (d₁ : Disk) : ∃ d₂,
    ((c.fromDisk d name).writeAll h).save? d₁ = some d₂ ∧
    ∀ other, d₂.read? other = if other = saveNameOf name then
      some ((c.fromDisk d name).writeAll h).ram.data else d₁.read? other := by
  have named : ((c.fromDisk d name).writeAll h).saveName = some (saveNameOf name) := by
    rw [writeAll_saveName, accepts.fromDisk_saveName, if_pos backed]
  have make := (sameMake_fromDisk c d name).trans (sameMake_writeAll _ h)
  have nonempty := make.isEmpty.trans backed.2
  obtain ⟨d₂, done⟩ : ∃ d₂, ((c.fromDisk d name).writeAll h).save? d₁ = some d₂ :=
    ⟨_, (save?_of_named named nonempty d₁).trans (if_pos valid)⟩
  exact ⟨d₂, done, fun other => save?_own named nonempty done⟩

/-- The file fills the RAM from its beginning, and the rest is zero. -/
theorem restored (saved : Array UInt8) (i : Nat) : (restore c.ram saved).data[i]? =
    if i < c.ram.data.size then some (saved.getD i 0) else none := by
  have fresh : c.ram.data[i]? = if i < c.ram.data.size then some 0 else none :=
    (congrArg (·.data[i]?) accepts.ram).trans (Banks.zeros_getElem? _ _ _)
  rw [restore_getElem?, fresh]
  split <;> rfl

end Accepts

/-- A battery keeps the RAM. The file of saved bytes, if it is there, fills the RAM from its
beginning, and the rest is zero. After any writes, saving makes the RAM the content of that file, if
a file can have its name, and changes no other. The same name then gives a cartridge with that RAM.
For a cartridge without a battery or without RAM nothing is ever written. -/
theorem load_after_save (found : d.read? name = some image) (accepted : ofImage image = .ok c)
    (apart : saveNameOf name ≠ name) :
    ∃ l, load d name = .ok l ∧
      (c.Backed →
        (∀ i, l.ram.data[i]? = if i < c.ram.data.size then
            some (((d.read? (saveNameOf name)).getD #[]).getD i 0) else none) ∧
        ∀ (h : History UInt16) (d₁ : Disk), d₁.read? name = some image →
          isFileName (saveNameOf name) = true →
          ∃ d₂, (l.writeAll h).save? d₁ = some d₂ ∧
            (∀ other, d₂.read? other = if other = saveNameOf name then
              some (l.writeAll h).ram.data else d₁.read? other) ∧
            ∃ again, load d₂ name = .ok again ∧ again.ram = (l.writeAll h).ram) ∧
      (¬c.Backed → ∀ (h : History UInt16) (d₁ : Disk), (l.writeAll h).save? d₁ = some d₁) := by
  have accepts := accepts_of_ofImage accepted
  refine ⟨c.fromDisk d name, load_of_accepted found accepted, fun backed => ⟨fun i => ?_, ?_⟩, ?_⟩
  · rw [fromDisk_ram backed, accepts.restored]
  · intro h d₁ kept valid
    obtain ⟨d₂, done, files⟩ := accepts.save_writeAll backed valid h d₁
    have make := (sameMake_fromDisk c d name).trans (sameMake_writeAll _ h)
    have saved : d₂.read? (saveNameOf name) = some ((c.fromDisk d name).writeAll h).ram.data := by
      rw [files, if_pos rfl]
    have still : d₂.read? name = some image := by rw [files, if_neg apart.symm, kept]
    refine ⟨d₂, done, files, c.fromDisk d₂ name, load_of_accepted still accepted, ?_⟩
    rw [fromDisk_ram backed, saved, Option.getD_some, restore_of_size make.ramSize,
      ← make.ramBankSize]
  · intro unbacked h d₁
    have unnamed : ((c.fromDisk d name).writeAll h).saveName = none := by
      rw [writeAll_saveName, accepts.fromDisk_saveName, if_neg unbacked]
    exact save?_none unnamed d₁

/-- A controller with a battery, and RAM of one bank. -/
def batteryByte (n : Nat) : UInt8 := if n = 0x147 then 0x03 else if n = 0x149 then 0x02 else 0

/-- The smallest image with a battery. -/
def batteryImage : Array UInt8 := Array.ofFn fun i : Fin 0x8000 => batteryByte i

theorem exists_battery : ∃ c, ofImage batteryImage = .ok c ∧ c.Backed ∧
    c.ram.data.size = 0x2000 := by
  have size : batteryImage.size = 0x8000 := Array.size_ofFn
  obtain ⟨title, header⟩ := header_ofFn batteryByte (show 0x150 ≤ 0x8000 by decide)
  obtain ⟨c, accepted, _⟩ := exists_ofImage header rfl rfl rfl (Nat.le_of_eq size.symm)
  have accepts := accepts_of_ofImage accepted
  have same := Except.ok.inj (header.symm.trans accepts.header)
  have ram : c.ram.data.size = 0x2000 := by
    have known := accepts.ramSize
    rw [← same] at known
    exact (Except.ok.inj known).symm
  refine ⟨c, accepted, ⟨by rw [← same]; rfl, ?_⟩, ram⟩
  rw [Banks.isEmpty, Array.isEmpty, ram]
  rfl

/-- The first of its 0x2000 bytes alone are not enough. -/
theorem ofImage_battery_cut :
    ofImage (Array.ofFn fun i : Fin 0x2000 => batteryByte i) =
      .error (.sizeMismatch 0x8000 0x2000) := by
  have short : (Array.ofFn fun i : Fin 0x2000 => batteryByte i).size = 0x2000 := Array.size_ofFn
  obtain ⟨title, header⟩ : ∃ title,
      Header.ofImage (Array.ofFn fun i : Fin 0x2000 => batteryByte i) =
        .ok ⟨title, 0x03, 0, 0x02, 0⟩ := header_ofFn batteryByte (by decide)
  have declared : Header.romSize ⟨title, 0x03, 0, 0x02, 0⟩ = .ok 0x8000 := rfl
  have refused := ofImage_of_short header rfl declared rfl (by rw [short]; decide)
  rwa [short] at refused

/-- Three saved bytes, and a fourth that is written and then saved. -/
theorem load_after_save_of_three : ∃ l d₂ again,
    load [("game.gb", batteryImage), ("game.sav", #[1, 2, 3])] "game.gb" = .ok l ∧
    l.ram.data[2]? = some 3 ∧ l.ram.data[3]? = some 0 ∧
    (l.writeAll [(0x0000, 0x0A), (0xA003, 4)]).save?
      [("game.gb", batteryImage), ("game.sav", #[1, 2, 3])] = some d₂ ∧
    load d₂ "game.gb" = .ok again ∧
    again.ram = (l.writeAll [(0x0000, 0x0A), (0xA003, 4)]).ram := by
  obtain ⟨c, accepted, backed, size⟩ := exists_battery
  have save : saveNameOf "game.gb" = "game.sav" := by decide +kernel
  obtain ⟨l, loaded, kept, _⟩ := load_after_save
    (d := [("game.gb", batteryImage), ("game.sav", #[1, 2, 3])]) rfl accepted
    (by rw [save]; decide)
  obtain ⟨ram, saves⟩ := kept backed
  obtain ⟨d₂, done, _, again, reloaded, same⟩ := saves [(0x0000, 0x0A), (0xA003, 4)]
    [("game.gb", batteryImage), ("game.sav", #[1, 2, 3])] rfl (by rw [save]; decide +kernel)
  refine ⟨l, d₂, again, loaded, ?_, ?_, done, reloaded, same⟩
  · rw [ram, size, save]
    rfl
  · rw [ram, size, save]
    rfl

end Cartridge

end DotMatrix
