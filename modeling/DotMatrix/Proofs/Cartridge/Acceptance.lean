import DotMatrix.Proofs.Cartridge.Rom
import Mathlib.Tactic.IntervalCases
import Mathlib.Tactic.SplitIfs

namespace DotMatrix

/-- The type codes of a controller. -/
def ControllerKind.codes : ControllerKind → List Nat
  | .fixed => [0x00, 0x08, 0x09]
  | .mbc1 => [0x01, 0x02, 0x03]
  | .mbc2 => [0x05, 0x06]
  | .mbc3 => [0x0F, 0x10, 0x11, 0x12, 0x13]
  | .mbc5 => [0x19, 0x1A, 0x1B, 0x1C, 0x1D, 0x1E]

namespace Header

/-- Whether some controller goes by that code. -/
def typeKnown (code : UInt8) : Bool :=
  [ControllerKind.fixed, .mbc1, .mbc2, .mbc3, .mbc5].any fun kind => code.toNat ∈ kind.codes

/-- Whether there is a ROM of that code. -/
def romKnown (code : UInt8) : Bool :=
  code.toNat ≤ 0x08 || 0x52 ≤ code.toNat && code.toNat ≤ 0x54

/-- The banks of ROM that a known code declares. -/
def romBanks (code : UInt8) : Nat :=
  match code.toNat with
  | 0x52 => 72
  | 0x53 => 80
  | 0x54 => 96
  | n => 2 ^ (n + 1)

/-- The bytes of RAM that a known code declares. The controller with cells has its own. -/
def ramBytes (kind : ControllerKind) (code : UInt8) : Nat :=
  if kind = .mbc2 then 512 else [0, 0x800, 0x2000, 0x8000, 0x20000, 0x10000].getD code.toNat 0

variable {h : Header}

/-- The header names a controller when its code is among those of the controller. -/
theorem kind_eq_ok {kind : ControllerKind} :
    h.kind = .ok kind ↔ h.kindCode.toNat ∈ kind.codes := by
  unfold Header.kind
  cases kind <;> simp only [ControllerKind.codes, List.mem_cons, List.not_mem_nil, or_false] <;>
    split_ifs <;> simp <;> omega

theorem exists_kind (known : typeKnown h.kindCode = true) : ∃ kind, h.kind = .ok kind := by
  obtain ⟨kind, -, member⟩ := List.any_eq_true.mp known
  exact ⟨kind, kind_eq_ok.mpr (of_decide_eq_true member)⟩

theorem kind_of_unknown (unknown : typeKnown h.kindCode = false) :
    h.kind = .error (.unsupportedType h.kindCode) := by
  cases found : h.kind with
  | ok kind =>
    have member := decide_eq_true (kind_eq_ok.mp found)
    have never := List.any_eq_false.mp unknown kind (by cases kind <;> simp)
    exact absurd member never
  | error e =>
    unfold Header.kind at found
    dsimp only at found
    split_ifs at found
    exact found.symm

theorem romSize_of_known (known : romKnown h.romCode = true) :
    h.romSize = .ok (romBanks h.romCode * 0x4000) := by
  simp only [romKnown, Bool.or_eq_true, Bool.and_eq_true, decide_eq_true_eq] at known
  unfold romSize romBanks
  dsimp only
  generalize h.romCode.toNat = n at known
  rcases known with small | large
  · rw [if_pos small, Nat.shiftLeft_eq]
    split
    · omega
    · omega
    · omega
    · rw [Nat.pow_succ]
      congr 1
      omega
  · obtain rfl | rfl | rfl : n = 0x52 ∨ n = 0x53 ∨ n = 0x54 := by omega
    · rfl
    · rfl
    · rfl

theorem romSize_of_unknown (unknown : romKnown h.romCode = false) :
    h.romSize = .error (.invalidRomSize h.romCode) := by
  simp only [romKnown, Bool.or_eq_false_iff, Bool.and_eq_false_iff,
    decide_eq_false_iff_not] at unknown
  unfold romSize
  dsimp only
  rw [if_neg (by omega), if_neg (by omega), if_neg (by omega), if_neg (by omega)]

/-- Only one controller has its cells on the chip, and its codes are its own. -/
theorem cells_iff {kind : ControllerKind} (isKind : h.kind = .ok kind) :
    h.kindCode.toNat ∈ ControllerKind.mbc2.codes ↔ kind = .mbc2 := by
  rw [← kind_eq_ok, isKind, Except.ok.injEq]

/-- The controller with cells has as many as it always has. -/
theorem ramSize_of_cells (cells : h.kind = .ok .mbc2) : h.ramSize = .ok 0x200 := by
  have code := kind_eq_ok.mp cells
  simp only [ControllerKind.codes, List.mem_cons, List.not_mem_nil, or_false] at code
  rw [ramSize, if_pos]
  exact code.imp (fun five => UInt8.toNat_inj.mp five) fun six => UInt8.toNat_inj.mp six

theorem not_cells {kind : ControllerKind} (isKind : h.kind = .ok kind) (other : kind ≠ .mbc2) :
    ¬(h.kindCode = 0x05 ∨ h.kindCode = 0x06) := by
  refine fun code => other ((cells_iff isKind).mp ?_)
  rcases code with code | code <;> rw [code] <;> decide

/-- What a RAM code means. It means nothing where the cells are on the chip. -/
theorem ramSize_of_known {kind : ControllerKind} (isKind : h.kind = .ok kind)
    (known : kind = .mbc2 ∨ h.ramCode.toNat ≤ 5) :
    h.ramSize = .ok (ramBytes kind h.ramCode) := by
  unfold ramBytes
  split
  · rename_i cells
    rw [cells] at isKind
    exact ramSize_of_cells isKind
  · rename_i other
    have small := known.resolve_left other
    rw [ramSize, if_neg (not_cells isKind other)]
    generalize h.ramCode.toNat = n at small
    interval_cases n
    all_goals rfl

/-- A RAM code above the last is refused, unless the cells are on the chip. -/
theorem ramSize_of_unknown {kind : ControllerKind} (isKind : h.kind = .ok kind)
    (other : kind ≠ .mbc2) (large : 5 < h.ramCode.toNat) :
    h.ramSize = .error (.invalidRamSize h.ramCode) := by
  rw [ramSize, if_neg (not_cells isKind other)]
  generalize h.ramCode.toNat = n at large
  obtain ⟨m, rfl⟩ := Nat.exists_eq_add_of_le' (Nat.succ_le_of_lt large)
  rfl

theorem eq_romBanks {size : Nat} (isSize : h.romSize = .ok size) :
    size = romBanks h.romCode * 0x4000 := by
  cases known : romKnown h.romCode with
  | false => cases isSize.symm.trans (romSize_of_unknown known)
  | true => exact Except.ok.inj (isSize.symm.trans (romSize_of_known known))

theorem eq_ramBytes {kind : ControllerKind} {size : Nat} (isKind : h.kind = .ok kind)
    (isSize : h.ramSize = .ok size) : size = ramBytes kind h.ramCode := by
  by_cases known : kind = .mbc2 ∨ h.ramCode.toNat ≤ 5
  · exact Except.ok.inj (isSize.symm.trans (ramSize_of_known isKind known))
  · obtain ⟨other, large⟩ := not_or.mp known
    cases isSize.symm.trans (ramSize_of_unknown isKind other (Nat.lt_of_not_le large))

end Header

namespace Cartridge

/-- A byte of an image that may be too short for it. -/
def byteAt (image : Array UInt8) (n : Nat) : UInt8 := image.getD n 0

/-- What is asked of an image in turn, and what is wrong with one of which it does not hold. -/
def checks (image : Array UInt8) : List (Bool × ImageError) :=
  let type := byteAt image 0x147
  let rom := byteAt image 0x148
  let ram := byteAt image 0x149
  let declared := Header.romBanks rom * 0x4000
  [(0x150 ≤ image.size, .tooSmall image.size),
   (Header.typeKnown type, .unsupportedType type),
   (Header.romKnown rom, .invalidRomSize rom),
   (ram.toNat ≤ 5 ∨ type.toNat ∈ ControllerKind.mbc2.codes, .invalidRamSize ram),
   (declared ≤ image.size, .sizeMismatch declared image.size)]

/-- A long enough image has a header, and its codes are bytes of the image. -/
theorem header_of_long {image : Array UInt8} (long : 0x150 ≤ image.size) :
    ∃ h, Header.ofImage image = .ok h ∧ h.kindCode = byteAt image 0x147 ∧
      h.romCode = byteAt image 0x148 ∧ h.ramCode = byteAt image 0x149 := by
  have byte {n : Nat} (below : n < image.size) : image[n] = byteAt image n := by
    simp [byteAt, Array.getD, below]
  rw [Header.ofImage, dif_neg (Nat.not_lt.mpr long)]
  exact ⟨_, rfl, byte _, byte _, byte _⟩

/-- The first check that fails decides, and an image that passes them all is accepted. -/
theorem ofImage_of_checks (image : Array UInt8) :
    match (checks image).find? fun check => !check.1 with
    | some check => ofImage image = .error check.2
    | none => ∃ c, ofImage image = .ok c := by
  by_cases long : 0x150 ≤ image.size
  case neg =>
    have refused : Header.ofImage image = .error (.tooSmall image.size) :=
      dif_pos (Nat.lt_of_not_le long)
    simp [checks, long, ofImage, refused, bind, Except.bind]
  obtain ⟨header, isHeader, type, rom, ram⟩ := header_of_long long
  unfold checks
  dsimp only
  rw [← type, ← rom, ← ram]
  cases typeKnown : Header.typeKnown header.kindCode
  case false =>
    simp [long, ofImage, isHeader, Header.kind_of_unknown typeKnown, bind, Except.bind]
  obtain ⟨kind, isKind⟩ := Header.exists_kind typeKnown
  cases romKnown : Header.romKnown header.romCode
  case false =>
    simp [long, ofImage, isHeader, isKind, Header.romSize_of_unknown romKnown, bind, Except.bind]
  have isRomSize := Header.romSize_of_known romKnown
  have cells := Header.cells_iff isKind
  by_cases ramKnown : header.ramCode.toNat ≤ 5 ∨ header.kindCode.toNat ∈ ControllerKind.mbc2.codes
  case neg =>
    obtain ⟨large, other⟩ := not_or.mp ramKnown
    have isRamSize := Header.ramSize_of_unknown isKind (mt cells.mpr other) (Nat.lt_of_not_le large)
    simp [long, large, other, ofImage, isHeader, isKind, isRomSize, isRamSize, bind, Except.bind]
  have isRamSize := Header.ramSize_of_known isKind (ramKnown.symm.imp_left cells.mp)
  by_cases fits : Header.romBanks header.romCode * 0x4000 ≤ image.size
  case neg =>
    have short := ofImage_of_short isHeader isKind isRomSize isRamSize (Nat.lt_of_not_le fits)
    simp [long, ramKnown, fits, short]
  obtain ⟨c, accepted, -⟩ := exists_ofImage isHeader isKind isRomSize isRamSize fits
  simp [long, ramKnown, fits, accepted]

/-- An image is accepted when it passes every check. -/
theorem accepted_iff_checks (image : Array UInt8) :
    (∃ c, ofImage image = .ok c) ↔ ∀ check ∈ checks image, check.1 = true := by
  have decided := ofImage_of_checks image
  cases first : (checks image).find? fun check => !check.1 with
  | none =>
    rw [first] at decided
    refine ⟨fun _ check member => ?_, fun _ => decided⟩
    simpa using List.find?_eq_none.mp first check member
  | some check =>
    rw [first] at decided
    have failed : check.1 = false := by simpa using List.find?_some first
    constructor
    · rintro ⟨c, accepted⟩
      cases decided.symm.trans accepted
    · intro passed
      cases failed.symm.trans (passed check (List.mem_of_find?_eq_some first))

/-- The error is that of the first check that fails. -/
theorem error_iff_checks (image : Array UInt8) (e : ImageError) : ofImage image = .error e ↔
    ((checks image).find? fun check => !check.1).map Prod.snd = some e := by
  have decided := ofImage_of_checks image
  cases first : (checks image).find? fun check => !check.1 with
  | none =>
    rw [first] at decided
    obtain ⟨c, accepted⟩ := decided
    simp [accepted]
  | some check =>
    rw [first] at decided
    simp [decided]

/-- The checks look at the length of an image and at three of its bytes. -/
theorem checks_congr {image other : Array UInt8} (size : other.size = image.size)
    (codes : ∀ n ∈ [0x147, 0x148, 0x149], byteAt other n = byteAt image n) :
    checks other = checks image := by
  unfold checks
  rw [size, codes 0x147 (by simp), codes 0x148 (by simp), codes 0x149 (by simp)]

/-- What becomes of an image that is accepted. -/
theorem content_of_ofImage {image : Array UInt8} {c : Cartridge}
    (accepted : ofImage image = .ok c) :
    ∃ kind : ControllerKind, ∃ banks ≥ 2, (byteAt image 0x147).toNat ∈ kind.codes ∧
      banks = Header.romBanks (byteAt image 0x148) ∧ c.controller = .initial kind ∧
      c.rom = ⟨image.extract 0 (banks * 0x4000), 0x4000⟩ ∧ c.rom.data.size = banks * 0x4000 ∧
      c.ram.data = Array.replicate (Header.ramBytes kind (byteAt image 0x149)) 0 := by
  have accepts := accepts_of_ofImage accepted
  have long : 0x150 ≤ image.size := by
    by_contra short
    cases accepts.header.symm.trans (dif_pos (Nat.lt_of_not_le short))
  obtain ⟨header, isHeader, type, rom, ram⟩ := header_of_long long
  obtain rfl : c.header = header := Except.ok.inj (accepts.header.symm.trans isHeader)
  obtain ⟨n, two, full⟩ := Header.romSize_eq_ok accepts.romSize
  have banks : n = Header.romBanks c.header.romCode := by
    have declared := Header.eq_romBanks accepts.romSize
    omega
  rw [← type, ← rom, ← ram]
  refine ⟨c.controller.kind, n, two, Header.kind_eq_ok.mp accepts.kind, banks, accepts.controller,
    ?_, full, ?_⟩
  · rw [← full]
    exact accepts.rom
  · rw [← Header.eq_ramBytes accepts.kind accepts.ramSize, accepts.ram]
    simp [Banks.zeros]

/-- An image becomes a cartridge exactly if it passes every check, and what is wrong with any other
is the first check that it fails. Of its bytes only the three codes are asked for. The cartridge has
the banks of ROM that the image declares, at least two, RAM of zeros, and a new controller. -/
theorem ofImage_exact (image : Array UInt8) :
    ((∃ c, ofImage image = .ok c) ↔ ∀ check ∈ checks image, check.1 = true) ∧
    (∀ e, ofImage image = .error e ↔
      ((checks image).find? fun check => !check.1).map Prod.snd = some e) ∧
    (∀ other, other.size = image.size →
      (∀ n ∈ [0x147, 0x148, 0x149], byteAt other n = byteAt image n) →
      ((∃ c, ofImage other = .ok c) ↔ ∃ c, ofImage image = .ok c)) ∧
    ∀ c, ofImage image = .ok c → ∃ kind : ControllerKind, ∃ banks ≥ 2,
      (byteAt image 0x147).toNat ∈ kind.codes ∧ banks = Header.romBanks (byteAt image 0x148) ∧
      c.controller = .initial kind ∧ c.rom = ⟨image.extract 0 (banks * 0x4000), 0x4000⟩ ∧
      c.rom.data.size = banks * 0x4000 ∧
      c.ram.data = Array.replicate (Header.ramBytes kind (byteAt image 0x149)) 0 := by
  refine ⟨accepted_iff_checks image, error_iff_checks image, fun other size codes => ?_,
    fun c accepted => content_of_ofImage accepted⟩
  rw [accepted_iff_checks, accepted_iff_checks, checks_congr size codes]

/-- Two banks of ROM and cells of RAM, under a RAM code that means nothing. -/
def cellsImage (checksum : UInt8) : Array UInt8 := Array.ofFn fun i : Fin 0x8000 =>
  if i.val = 0x147 then 0x06 else if i.val = 0x149 then 0xFF
  else if i.val = 0x14D then checksum else 0

theorem byteAt_cellsImage (checksum : UInt8) {n : Nat} (below : n < 0x8000) :
    byteAt (cellsImage checksum) n = if n = 0x147 then 0x06 else if n = 0x149 then 0xFF
      else if n = 0x14D then checksum else 0 := by
  simp [byteAt, cellsImage, below]

/-- The RAM code is not asked for, nor is the checksum. -/
theorem ofImage_exact_cells : ∃ c d, ofImage (cellsImage 0x55) = .ok c ∧
    ofImage (cellsImage 0xAA) = .ok d ∧ c.ram.data = Array.replicate 512 0 := by
  have size (checksum : UInt8) : (cellsImage checksum).size = 0x8000 := Array.size_ofFn
  have type := byteAt_cellsImage 0x55 (show 0x147 < 0x8000 by decide)
  have rom := byteAt_cellsImage 0x55 (show 0x148 < 0x8000 by decide)
  have ram := byteAt_cellsImage 0x55 (show 0x149 < 0x8000 by decide)
  obtain ⟨accepted, -, same, content⟩ := ofImage_exact (cellsImage 0x55)
  have passes : ∀ check ∈ checks (cellsImage 0x55), check.1 = true := by
    rw [checks, type, rom, ram, size]
    decide
  obtain ⟨c, isC⟩ := accepted.mpr passes
  have codes : ∀ n ∈ [0x147, 0x148, 0x149],
      byteAt (cellsImage 0xAA) n = byteAt (cellsImage 0x55) n := by
    intro n code
    have below : n < 0x8000 := (by decide : ∀ n ∈ [0x147, 0x148, 0x149], n < 0x8000) n code
    have other : n ≠ 0x14D := (by decide : ∀ n ∈ [0x147, 0x148, 0x149], n ≠ 0x14D) n code
    simp only [byteAt_cellsImage _ below, if_neg other]
  obtain ⟨d, isD⟩ := (same _ ((size _).trans (size _).symm) codes).mpr ⟨c, isC⟩
  obtain ⟨kind, banks, -, isKind, -, -, -, -, zeros⟩ := content c isC
  refine ⟨c, d, isC, isD, ?_⟩
  rw [type] at isKind
  have cells : kind = .mbc2 := by
    cases kind with
    | mbc2 => rfl
    | _ => exact absurd isKind (by decide)
  rw [zeros, cells]
  rfl

end Cartridge

end DotMatrix
