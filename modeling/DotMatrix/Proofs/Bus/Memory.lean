import DotMatrix.Proofs.Bus.Footprint

namespace DotMatrix.Bus

/-- The addresses of plain memory, work RAM with both of its images. -/
def Plain (a : UInt16) : Prop :=
  0x8000 ≤ a ∧ a ≤ 0x9FFF ∨ 0xC000 ≤ a ∧ a ≤ 0xFE9F ∨ 0xFF80 ≤ a ∧ a ≤ 0xFFFE

instance (a : UInt16) : Decidable (Plain a) := inferInstanceAs (Decidable (_ ∨ _ ∨ _))

/-- The addresses at which the byte of an address shows. -/
def Shows (a b : UInt16) : Prop := b = a ∨ Echoes a b ∨ Echoes b a

/-- The addresses at which one of the `n` bytes below `sp` shows. -/
def Below (sp : UInt16) (n : Nat) (b : UInt16) : Prop :=
  ∃ a : UInt16, sp.toNat ≤ a.toNat + n ∧ a.toNat < sp.toNat ∧ Shows a b

/-- Memories may differ inside some addresses, and nothing else. -/
structure Overwritten (s t : Bus) (inside : UInt16 → Prop) : Prop where
  memories : ∃ vram wram oam hram,
    t = { s with vram := vram, wram := wram, oam := oam, hram := hram }
  outside : ∀ b, ¬inside b → t.read b = s.read b

namespace Overwritten

variable {s t u : Bus} {inside further : UInt16 → Prop}

theorem refl (s : Bus) (inside : UInt16 → Prop) : s.Overwritten s inside :=
  ⟨⟨_, _, _, _, rfl⟩, fun _ _ => rfl⟩

/-- A change within some addresses is one within any wider set of them. -/
theorem mono (change : s.Overwritten t inside) (wider : ∀ b, inside b → further b) :
    s.Overwritten t further :=
  ⟨change.memories, fun b outside => change.outside b (mt (wider b) outside)⟩

theorem trans (first : s.Overwritten t inside) (second : t.Overwritten u inside) :
    s.Overwritten u inside := by
  refine ⟨?_, fun b outside => (second.outside b outside).trans (first.outside b outside)⟩
  obtain ⟨_, _, _, _, rfl⟩ := first.memories
  obtain ⟨_, _, _, _, rfl⟩ := second.memories
  exact ⟨_, _, _, _, rfl⟩

/-- Plain memory holds no request, so none appears or disappears. -/
theorem pending (change : s.Overwritten t inside) : t.pending = s.pending := by
  obtain ⟨_, _, _, _, rfl⟩ := change.memories
  rfl

theorem requested (change : s.Overwritten t inside) : t.requested = s.requested := by
  obtain ⟨_, _, _, _, rfl⟩ := change.memories
  rfl

end Overwritten

variable {s : Bus} {sp a b : UInt16} {v : UInt8} {n : Nat}

/-- The plain addresses in numbers. They are video memory, work memory with its echo and the sprite
table, and the memory at the top. -/
theorem plain_iff : Plain a ↔ 0x8000 ≤ a.toNat ∧ a.toNat ≤ 0x9FFF ∨
    0xC000 ≤ a.toNat ∧ a.toNat ≤ 0xFE9F ∨ 0xFF80 ≤ a.toNat ∧ a.toNat ≤ 0xFFFE := by
  simp only [Plain, UInt16.le_iff_toNat_le, UInt16.reduceToNat]

/-- Two addresses show the same byte when they are equal or an echo apart. -/
theorem shows_iff : Shows a b ↔ b.toNat = a.toNat ∨
    0xC000 ≤ a.toNat ∧ a.toNat ≤ 0xDDFF ∧ b.toNat = a.toNat + 0x2000 ∨
    0xC000 ≤ b.toNat ∧ b.toNat ≤ 0xDDFF ∧ a.toNat = b.toNat + 0x2000 := by
  simp only [Shows, echoes_iff, ← UInt16.toNat_inj]

theorem Plain.keeps (plain : Plain a) : Keeps a := by
  rcases plain with vram | ram | hram
  · exact Or.inl vram
  · exact Or.inr (Or.inl ram)
  · exact Or.inr (Or.inr (Or.inl hram.1))

theorem Plain.read_self (plain : Plain a) (s : Bus) (v : UInt8) : (s.write a v).read a = v :=
  read_of_keeps plain.keeps s v

/-- A write to plain memory shows nowhere but at its own byte. -/
theorem Plain.read_other (plain : Plain a) (elsewhere : ¬Shows a b) (s : Bus) (v : UInt8) :
    (s.write a v).read b = s.read b := by
  by_contra changed
  refine elsewhere (Or.inr ?_)
  rw [plain_iff] at plain
  cases touches_of_changed (fun same => elsewhere (Or.inl same)) changed with
  | echo image => exact Or.inl image
  | original image => exact Or.inr image
  | control rom =>
    simp only [UInt16.le_iff_toNat_le, UInt16.reduceToNat] at rom
    omega
  | window inside =>
    rw [inWindow_iff] at inside
    omega
  | sprites | counter => simp only [UInt16.reduceToNat] at plain; omega

/-- A write to plain memory is a change within the addresses that show its byte. -/
theorem Plain.overwritten (plain : Plain a) (s : Bus) (v : UInt8) :
    s.Overwritten (s.write a v) (Shows a) := by
  refine ⟨?_, fun b elsewhere => plain.read_other elsewhere s v⟩
  rw [plain_iff] at plain
  have atA := Cell.ofAddress_at a
  rw [write, writeBy]
  generalize Cell.ofAddress a = c at atA
  cases c with
  | vram | wram | oam | hram => exact ⟨_, _, _, _, rfl⟩
  | timer r =>
    have bounds := atA.timer_bounds
    exfalso
    omega
  | _ =>
    simp only [Cell.At] at atA
    exfalso
    omega

/-- The first address of each memory, and the one after its last. -/
def memories : List (Nat × Nat) :=
  [(0x8000, 0xA000), (0xC000, 0xE000), (0xFE00, 0xFEA0), (0xFF80, 0xFFFF)]

/-- The `n` bytes below `sp` lie in one memory, if there are any. -/
def Room (sp : UInt16) (n : Nat) : Prop :=
  n = 0 ∨ ∃ m ∈ memories, m.1 + n ≤ sp.toNat ∧ sp.toNat ≤ m.2

instance (sp : UInt16) (n : Nat) : Decidable (Room sp n) := inferInstanceAs (Decidable (_ ∨ _))

/-- Room in numbers. The bytes below the pointer lie within one of the plain memories. -/
theorem room_iff : Room sp n ↔ n = 0 ∨ 0x8000 + n ≤ sp.toNat ∧ sp.toNat ≤ 0xA000 ∨
    0xC000 + n ≤ sp.toNat ∧ sp.toNat ≤ 0xE000 ∨ 0xFE00 + n ≤ sp.toNat ∧ sp.toNat ≤ 0xFEA0 ∨
    0xFF80 + n ≤ sp.toNat ∧ sp.toNat ≤ 0xFFFF := by
  simp only [Room, memories, List.exists_mem_cons_iff, List.not_mem_nil, false_and, exists_false,
    or_false]

section Pair

theorem toNat_sub_one (two : 2 ≤ sp.toNat) : (sp - 1).toNat = sp.toNat - 1 :=
  UInt16.toNat_sub_of_le _ _ (UInt16.le_iff_toNat_le.mpr (Nat.le_of_succ_le two))

theorem toNat_sub_two (two : 2 ≤ sp.toNat) : (sp - 2).toNat = sp.toNat - 2 :=
  UInt16.toNat_sub_of_le _ _ (UInt16.le_iff_toNat_le.mpr two)

theorem Plain.two_le (upper : Plain (sp - 1)) : 2 ≤ sp.toNat := by
  by_contra few
  have bottom : sp = 0 ∨ sp = 1 := by
    simp only [← UInt16.toNat_inj, UInt16.reduceToNat]
    omega
  rcases bottom with rfl | rfl <;> revert upper <;> decide

theorem Room.two_le (room : Room sp (n + 2)) : 2 ≤ sp.toNat := by
  rw [room_iff] at room
  omega

/-- The two bytes below the pointer are the ones that a push writes. -/
theorem below_pair (two : 2 ≤ sp.toNat) :
    Below sp 2 b ↔ Shows (sp - 1) b ∨ Shows (sp - 2) b := by
  have upper := toNat_sub_one two
  have lower := toNat_sub_two two
  constructor
  · rintro ⟨a, above, below, shown⟩
    have places : a = sp - 1 ∨ a = sp - 2 := by
      simp only [← UInt16.toNat_inj, upper, lower]
      omega
    rcases places with rfl | rfl
    · exact Or.inl shown
    · exact Or.inr shown
  · rintro (shown | shown)
    · exact ⟨sp - 1, by omega, by omega, shown⟩
    · exact ⟨sp - 2, by omega, by omega, shown⟩

theorem not_shows_pair (two : 2 ≤ sp.toNat) : ¬Shows (sp - 2) (sp - 1) := by
  rw [shows_iff, toNat_sub_one two, toNat_sub_two two]
  omega

/-- Two bytes written below `sp` can be read there, and change nothing elsewhere. -/
theorem write_pair (upper : Plain (sp - 1)) (lower : Plain (sp - 2)) (s : Bus) (v w : UInt8) :
    let t := (s.write (sp - 1) v).write (sp - 2) w
    t.read (sp - 1) = v ∧ t.read (sp - 2) = w ∧ s.Overwritten t (Below sp 2) := by
  have two := upper.two_le
  refine ⟨?_, lower.read_self _ w, ?_⟩
  · rw [lower.read_other (not_shows_pair two), upper.read_self]
  · have first := (upper.overwritten s v).mono
      fun b shown => (below_pair two).mpr (Or.inl shown)
    have second := (lower.overwritten (s.write (sp - 1) v) w).mono
      fun b shown => (below_pair two).mpr (Or.inr shown)
    exact first.trans second

end Pair

namespace Room

/-- Where there is room for a word, both of its bytes are plain. -/
theorem pair (room : Room sp (n + 2)) : Plain (sp - 1) ∧ Plain (sp - 2) := by
  have two := room.two_le
  rw [room_iff] at room
  rw [plain_iff, plain_iff, toNat_sub_one two, toNat_sub_two two]
  omega

/-- What is left of the room after a word is room below the word. -/
theorem rest (room : Room sp (n + 2)) : Room (sp - 2) n := by
  have two := room.two_le
  rw [room_iff] at room ⊢
  rw [toNat_sub_two two]
  omega

/-- No byte of a memory shows a second time in the same memory. -/
theorem not_below (room : Room sp (n + 2)) (above : sp.toNat ≤ a.toNat + 2)
    (below : a.toNat < sp.toNat) : ¬Below (sp - 2) n a := by
  have two := room.two_le
  rintro ⟨b, first, second, shown⟩
  rw [room_iff] at room
  rw [shows_iff] at shown
  rw [toNat_sub_two two] at first second
  omega

end Room

/-- What lies below a pushed word lies below the pointer as well. -/
theorem below_rest (two : 2 ≤ sp.toNat) (below : Below (sp - 2) n b) : Below sp (n + 2) b := by
  obtain ⟨a, first, second, shown⟩ := below
  rw [toNat_sub_two two] at first second
  exact ⟨a, by omega, by omega, shown⟩

theorem below_mono {m : Nat} (less : m ≤ n) (below : Below sp m b) : Below sp n b := by
  obtain ⟨a, first, second, shown⟩ := below
  exact ⟨a, by omega, second, shown⟩

end DotMatrix.Bus
