import DotMatrix.Proofs.Bus.Footprint

namespace DotMatrix.Bus

/-- The address of a byte of a page. -/
def pageAddress (page : UInt8) (i : Nat) : UInt16 := UInt16.ofNat (256 * page.toNat + i)

/-- The sprite table with its first `n` bytes taken from a page. -/
def sprites (s : Bus) (page : UInt8) (n : Nat) : Vector UInt8 0xA0 :=
  .ofFn fun i => if i.val < n then s.read (pageAddress page i) else s.oam.get i

variable {s : Bus} {page : UInt8} {n : Nat}

theorem toNat_pageAddress (page : UInt8) (within : n < 0xA0) :
    (pageAddress page n).toNat = 256 * page.toNat + n := by
  have bound := page.toNat_lt
  rw [pageAddress, UInt16.toNat_ofNat']
  omega

theorem word_zero_add (page : UInt8) (within : n < 0xA0) :
    word page 0 + UInt16.ofNat n = pageAddress page n := by
  have bound := page.toNat_lt
  have start := toNat_word page 0
  rw [UInt8.toNat_zero, Nat.add_zero] at start
  rw [← UInt16.toNat_inj, toNat_pageAddress page within, UInt16.toNat_add, start,
    UInt16.toNat_ofNat']
  omega

/-- The sprite table lies at the start of its own page. -/
theorem place_of_oam {i : Fin 0xA0} (within : n < 0xA0)
    (cell : Cell.ofAddress (pageAddress page n) = .oam i) : page = 0xFE ∧ i.val = n := by
  have place := Cell.ofAddress_at (pageAddress page n)
  have inside := i.isLt
  rw [cell, toNat_pageAddress page within] at place
  simp only [Cell.At] at place
  have number : page.toNat = 0xFE := by omega
  exact ⟨UInt8.toNat_inj.mp number, by omega⟩

theorem read_of_oam {a : UInt16} {oam : Vector UInt8 0xA0}
    (same : ∀ i, Cell.ofAddress a = .oam i → oam.get i = s.oam.get i) :
    { s with oam := oam }.read a = s.read a := by
  rw [read, read]
  generalize Cell.ofAddress a = c at same
  cases c with
  | oam i => exact same i rfl
  | _ => rfl

/-- The table after `n` bytes of a copy has the first `n` of the page and keeps the others. -/
theorem sprites_getElem (s : Bus) (page : UInt8) (n : Nat) {i : Nat} (within : i < 0xA0) :
    (s.sprites page n)[i] = if i < n then s.read (pageAddress page i) else s.oam[i] :=
  Vector.getElem_ofFn within

@[simp] theorem sprites_zero (s : Bus) (page : UInt8) : s.sprites page 0 = s.oam :=
  Vector.ext fun i within => (sprites_getElem s page 0 within).trans (if_neg (Nat.not_lt_zero i))

theorem sprites_succ (within : n < 0xA0) :
    (s.sprites page n).set n (s.read (pageAddress page n)) = s.sprites page (n + 1) := by
  refine Vector.ext fun i inside => ?_
  rw [Vector.getElem_set, sprites_getElem, sprites_getElem]
  grind

/-- No byte is overwritten before it has been read. -/
theorem copySprites_eq (s : Bus) (page : UInt8) (few : n ≤ 0xA0) :
    copySprites (word page 0) n s = { s with oam := s.sprites page n } := by
  induction n with
  | zero => rw [sprites_zero]; rfl
  | succ n ih =>
    have within : n < 0xA0 := few
    have unread : { s with oam := s.sprites page n }.read (pageAddress page n) =
        s.read (pageAddress page n) := by
      refine read_of_oam fun i cell => ?_
      obtain ⟨-, rfl⟩ := place_of_oam within cell
      exact (sprites_getElem s page i.val within).trans (if_neg (Nat.lt_irrefl i.val))
    simp only [copySprites, ih (Nat.le_of_succ_le few), dif_pos within, word_zero_add page within,
      unread, sprites_succ within]

theorem ofAddress_eq_dma {a : UInt16} : Cell.ofAddress a = .register .dma ↔ a = 0xFF46 :=
  Cell.ofAddress_eq_register (by decide)

theorem read_store_dma (s : Bus) (a : UInt16) (v : UInt8) :
    (s.store .dma v).read a = if a = 0xFF46 then v else s.read a := by
  split
  · rename_i here
    have closed : Register.dma.openBits = 0 := by decide
    rw [read_store_self (ofAddress_eq_dma.mpr here), closed, UInt8.or_zero]
  · rename_i elsewhere
    exact read_store_of_ne (mt ofAddress_eq_dma.mp elsewhere) s v

/-- A write to FF46 stores the page and copies all the bytes of it. -/
theorem write_dma (s : Bus) (page : UInt8) : s.write 0xFF46 page =
    { s with
      registers := s.registers.put .dma page
      oam := (s.store .dma page).sprites page 0xA0 } := by
  have cell : Cell.ofAddress 0xFF46 = .register .dma := by decide
  have free : s.registers.programmed .dma page = page :=
    Registers.programmed_of_free (by decide) s.registers page
  rw [write, writeBy, cell, writeCell, writeRegister, free, follow, if_pos rfl,
    copySprites_eq _ page (Nat.le_refl _)]
  rfl

/-- Among the sources of a copy FF46 occurs once, as byte 46 of the page FF. -/
theorem pageAddress_eq_dma {i : Nat} (within : i < 0xA0) :
    pageAddress page i = 0xFF46 ↔ page = 0xFF ∧ i = 0x46 := by
  simp only [← UInt16.toNat_inj, ← UInt8.toNat_inj, toNat_pageAddress page within,
    UInt16.reduceToNat, UInt8.reduceToNat]
  omega

/-- After a copy each sprite byte is the byte read from the page. For FF46 itself that is the page
just written. -/
theorem write_dma_oam (s : Bus) (page : UInt8) (i : Fin 0xA0) : (s.write 0xFF46 page).oam.get i =
    if page = 0xFF ∧ i.val = 0x46 then page else s.read (pageAddress page i) := by
  have byte := sprites_getElem (s.store .dma page) page 0xA0 i.isLt
  rw [if_pos i.isLt, read_store_dma] at byte
  simp only [pageAddress_eq_dma i.isLt] at byte
  rw [write_dma]
  exact byte

theorem ofAddress_sprites (i : Fin 0xA0) : Cell.ofAddress (pageAddress 0xFE i) = .oam i := by
  revert i
  decide +kernel

theorem read_pageAddress_sprites (s : Bus) (i : Fin 0xA0) :
    s.read (pageAddress 0xFE i) = s.oam.get i := by
  rw [read, ofAddress_sprites]
  rfl

/-- The pages of both images of work RAM show its bytes. -/
theorem wram_getElem?_page (page : UInt8) (first : 0xC0 ≤ page.toNat) (last : page.toNat ≤ 0xFD)
    (within : n < 0xA0) (s : Bus) :
    s.wram[(256 * page.toNat + n) % 0x2000]? = some (s.read (pageAddress page n)) := by
  have place := Cell.ofAddress_at (pageAddress page n)
  rw [toNat_pageAddress page within] at place
  rw [read]
  generalize Cell.ofAddress (pageAddress page n) = c at place
  cases c with
  | wram i =>
    have same : (256 * page.toNat + n) % 0x2000 = i.val := by
      simp only [Cell.At] at place
      omega
    rw [same, readCell]
    exact Vector.getElem?_eq_getElem i.isLt
  | timer r =>
    have bounds := place.timer_bounds
    omega
  | _ => simp only [Cell.At] at place; omega

/-- The second image of work RAM shows what is in it from its start on, as the first one does. -/
theorem read_image (first : 0xE0 ≤ page) (last : page ≤ 0xFD) (within : n < 0xA0) (s : Bus) :
    s.wram[256 * (page.toNat - 0xE0) + n]? = some (s.read (pageAddress page n)) ∧
      s.read (pageAddress page n) = s.read (pageAddress (page - 0x20) n) := by
  rw [UInt8.le_iff_toNat_le] at first last
  simp only [UInt8.reduceToNat] at first last
  have original : (page - 0x20).toNat = page.toNat - 0x20 :=
    UInt8.toNat_sub_of_le _ _ (UInt8.le_iff_toNat_le.mpr (Nat.le_trans (by decide) first))
  have above : (256 * page.toNat + n) % 0x2000 = 256 * (page.toNat - 0xE0) + n := by omega
  have below : (256 * (page - 0x20).toNat + n) % 0x2000 = 256 * (page.toNat - 0xE0) + n := by omega
  have image := wram_getElem?_page page (by omega) last within s
  have source := wram_getElem?_page (page - 0x20) (by omega) (by omega) within s
  rw [above] at image
  rw [below, image] at source
  exact ⟨image, Option.some.inj source⟩

/-- A page that a program has copied into the sprite table arrives there as it was just before,
but for the byte that starts the copy, which names the page already. The register takes the page,
and nothing else changes. The page of the table itself leaves the table as it is, and the pages of
the second image of work RAM bring what is in work RAM. -/
theorem sprites_snapshot (s : Bus) (page : UInt8) :
    let t := s.write 0xFF46 page
    (∀ i : Fin 0xA0, t.oam.get i =
      if page = 0xFF ∧ i.val = 0x46 then page else s.read (pageAddress page i)) ∧
    t = { s with registers := s.registers.put .dma page, oam := t.oam } ∧
    (page = 0xFE → t.oam = s.oam) ∧
    (0xE0 ≤ page → page ≤ 0xFD → ∀ i : Fin 0xA0,
      s.wram[256 * (page.toNat - 0xE0) + i.val]? = some (t.oam.get i) ∧
      t.oam.get i = s.read (pageAddress (page - 0x20) i)) := by
  intro t
  have bytes : ∀ i : Fin 0xA0, t.oam.get i =
      if page = 0xFF ∧ i.val = 0x46 then page else s.read (pageAddress page i) :=
    fun i => write_dma_oam s page i
  have whole : t = { s with registers := s.registers.put .dma page, oam := t.oam } := by
    rw [show t = _ from write_dma s page]
  refine ⟨bytes, whole, fun own => ?_, fun first last i => ?_⟩
  · have ordinary : page ≠ 0xFF := by
      rw [own]
      decide
    have same (i : Fin 0xA0) : t.oam.get i = s.oam.get i := by
      rw [bytes i, if_neg fun trigger => ordinary trigger.1, own, read_pageAddress_sprites]
    exact Vector.ext fun i within => same ⟨i, within⟩
  · have ordinary : page ≠ 0xFF := by
      rintro rfl
      exact absurd last (by decide)
    rw [bytes i, if_neg fun trigger => ordinary trigger.1]
    exact read_image first last i.isLt s

/-- The second image of work RAM, the page of the register that starts the copy and the page of the
table. -/
theorem sprites_snapshot_of_image :
    let s := (Bus.boot .standard none).write 0xC003 0x5A
    (s.write 0xFF46 0xE0).oam[3] = 0x5A ∧ (s.write 0xFF46 0xFF).oam[0x46] = 0xFF ∧
      (s.write 0xFF46 0xFE).oam = s.oam := by
  intro s
  obtain ⟨-, -, -, image⟩ := sprites_snapshot s 0xE0
  obtain ⟨bytes, -⟩ := sprites_snapshot s 0xFF
  obtain ⟨-, -, own, -⟩ := sprites_snapshot s 0xFE
  have shown := (image (by decide) (by decide) 3).2
  have written : s.read (pageAddress (0xE0 - 0x20) 3) = 0x5A := by decide +kernel
  exact ⟨shown.trans written, (bytes 0x46).trans (if_pos (by decide)), own rfl⟩

end DotMatrix.Bus
