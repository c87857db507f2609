import DotMatrix.Cartridge.Banks
import Mathlib.Logic.ExistsUnique

namespace DotMatrix.Banks

variable {s : Banks} {n : Nat}

/-- The number of the byte that a bank and an offset name. -/
def index (s : Banks) (bank offset : Nat) : Nat :=
  (bank % s.count * s.bankSize + offset % s.bankSize) % s.data.size

theorem index_lt (nonempty : 0 < s.data.size) (bank offset : Nat) :
    s.index bank offset < s.data.size := Nat.mod_lt _ nonempty

/-- Data that is not empty has a place for every bank and offset. -/
theorem place?_of_nonempty (nonempty : 0 < s.data.size) (bank offset : Nat) :
    s.place? bank offset = some ⟨s.index bank offset, index_lt nonempty bank offset⟩ :=
  dif_pos nonempty

theorem map_place? (nonempty : 0 < s.data.size) (bank offset : Nat) :
    (s.place? bank offset).map Fin.val = some (s.index bank offset) := by
  rw [place?_of_nonempty nonempty, Option.map_some]

theorem getElem?_index (nonempty : 0 < s.data.size) (bank offset : Nat) :
    s.data[s.index bank offset]? = some (s.read bank offset) := by
  rw [read, place?_of_nonempty nonempty, Array.getElem?_eq_getElem (index_lt nonempty bank offset)]
  rfl

/-- A write changes the byte that it names and no other. -/
theorem write_getElem? (nonempty : 0 < s.data.size) (bank offset i : Nat) (v : UInt8) :
    (s.write bank offset v).data[i]? = if s.index bank offset = i then some v else s.data[i]? := by
  rw [write, place?_of_nonempty nonempty]
  exact Array.getElem?_set (index_lt nonempty bank offset)

/-- Data that fills its last bank has as many banks as its size says. -/
theorem count_of_full (full : s.data.size = n * s.bankSize) (wide : 0 < s.bankSize) :
    s.count = n := by
  rw [count, full, Nat.add_sub_assoc wide, Nat.mul_comm, Nat.mul_add_div wide,
    Nat.div_eq_of_lt (Nat.sub_lt wide Nat.one_pos), Nat.add_zero]

/-- In full banks every bank number and offset below the limits has a byte of its own. -/
theorem index_of_full (full : s.data.size = n * s.bankSize) (wide : 0 < s.bankSize)
    (positive : 0 < n) (bank offset : Nat) :
    s.index bank offset = bank % n * s.bankSize + offset % s.bankSize := by
  have below := Nat.mod_lt bank positive
  have within := Nat.mod_lt offset wide
  have inside : bank % n * s.bankSize + offset % s.bankSize < n * s.bankSize :=
    calc bank % n * s.bankSize + offset % s.bankSize
        < bank % n * s.bankSize + s.bankSize := Nat.add_lt_add_left within _
      _ = (bank % n + 1) * s.bankSize := (Nat.succ_mul _ _).symm
      _ ≤ n * s.bankSize := Nat.mul_le_mul_right _ below
  rw [index, count_of_full full wide, full, Nat.mod_eq_of_lt inside]

/-- In full banks the index is the bank, modulo their number, and the offset in it. -/
theorem getElem?_of_full (full : s.data.size = n * s.bankSize) (wide : 0 < s.bankSize)
    (positive : 0 < n) (bank offset : Nat) :
    s.data[bank % n * s.bankSize + offset % s.bankSize]? = some (s.read bank offset) := by
  have nonempty : 0 < s.data.size := by rw [full]; exact Nat.mul_pos positive wide
  rw [← index_of_full full wide positive, getElem?_index nonempty]

theorem count_pos (nonempty : 0 < s.data.size) (wide : 0 < s.bankSize) : 0 < s.count :=
  Nat.div_pos (by omega) wide

/-- A bank starts inside the data, even one that is not full. -/
theorem start_lt_size (nonempty : 0 < s.data.size) (wide : 0 < s.bankSize) (bank : Nat) :
    bank % s.count * s.bankSize < s.data.size := by
  have below := Nat.mod_lt bank (count_pos nonempty wide)
  have whole : s.count * s.bankSize ≤ s.data.size + s.bankSize - 1 := Nat.div_mul_le_self _ _
  have reached : (bank % s.count + 1) * s.bankSize ≤ s.count * s.bankSize :=
    Nat.mul_le_mul_right _ below
  rw [Nat.succ_mul] at reached
  omega

/-- The place of a byte is found in numbers of 64 bits. -/
theorem index_fits (nonempty : 0 < s.data.size) (wide : 0 < s.bankSize)
    (short : s.data.size < 1 <<< 63) (word : s.bankSize < 1 <<< 64) (bank offset : Nat) :
    bank % s.count * s.bankSize + offset % s.bankSize < 1 <<< 64 := by
  have start := start_lt_size nonempty wide bank
  have within := Nat.mod_lt offset wide
  -- Either this is the first bank, or a bank is no longer than the data.
  by_cases first : bank % s.count = 0
  · rw [first]
    omega
  · have second : s.bankSize ≤ bank % s.count * s.bankSize :=
      Nat.le_mul_of_pos_left _ (Nat.pos_of_ne_zero first)
    omega

/-- Banks repeat after the last one, and offsets at the end of a bank. -/
theorem place?_mod (bank offset : Nat) :
    s.place? (bank % s.count) (offset % s.bankSize) = s.place? bank offset := by
  simp only [place?, Nat.mod_mod]

theorem place?_eq_some (nonempty : 0 < s.data.size) {bank offset : Nat} {i : Fin s.data.size} :
    s.place? bank offset = some i ↔ s.index bank offset = i.val := by
  rw [place?_of_nonempty nonempty, Option.some_inj, Fin.ext_iff]

/-- Two banks and offsets name one place when their indices agree. -/
theorem place?_eq (nonempty : 0 < s.data.size) {bank offset bank' offset' : Nat} :
    s.place? bank offset = s.place? bank' offset' ↔ s.index bank offset = s.index bank' offset' := by
  rw [place?_of_nonempty nonempty bank', place?_eq_some nonempty]

theorem write_index (bank offset bank' offset' : Nat) (v : UInt8) :
    (s.write bank offset v).index bank' offset' = s.index bank' offset' := by
  simp only [index, count, write_size, write_bankSize]

/-- A byte is read back wherever the same place is named, and nowhere else. -/
theorem read_write (nonempty : 0 < s.data.size) (bank offset bank' offset' : Nat) (v : UInt8) :
    (s.write bank offset v).read bank' offset' =
      if s.place? bank offset = s.place? bank' offset' then v else s.read bank' offset' := by
  have still : 0 < (s.write bank offset v).data.size := by rwa [write_size]
  have byte := getElem?_index still bank' offset'
  rw [write_index, write_getElem? nonempty, getElem?_index nonempty] at byte
  simp only [place?_eq nonempty]
  split at byte
  · rename_i same
    rw [if_pos same]
    exact (Option.some.inj byte).symm
  · rename_i other
    rw [if_neg other]
    exact (Option.some.inj byte).symm

/-- In full banks every byte has one bank and one offset in it. -/
theorem existsUnique_place (full : s.data.size = n * s.bankSize) (wide : 0 < s.bankSize)
    (positive : 0 < n) (i : Fin s.data.size) :
    ∃! p : Nat × Nat, p.1 < n ∧ p.2 < s.bankSize ∧ s.place? p.1 p.2 = some i := by
  have nonempty : 0 < s.data.size := by rw [full]; exact Nat.mul_pos positive wide
  have inside : i.val < s.bankSize * n := by rw [Nat.mul_comm, ← full]; exact i.isLt
  have bank : i.val / s.bankSize < n := Nat.div_lt_of_lt_mul inside
  have offset := Nat.mod_lt i.val wide
  refine ⟨(i.val / s.bankSize, i.val % s.bankSize), ⟨bank, offset, ?_⟩, ?_⟩
  · rw [place?_eq_some nonempty, index_of_full full wide positive, Nat.mod_eq_of_lt bank, Nat.mod_mod,
      Nat.div_add_mod']
  · rintro ⟨b, o⟩ ⟨below, within, place⟩
    dsimp only at below within place
    rw [place?_eq_some nonempty, index_of_full full wide positive, Nat.mod_eq_of_lt below,
      Nat.mod_eq_of_lt within] at place
    rw [← place, Nat.mul_comm, Nat.mul_add_div wide, Nat.div_eq_of_lt within, Nat.mul_add_mod,
      Nat.mod_eq_of_lt within, Nat.add_zero]

/-- Bytes that do not fill a bank repeat in it. -/
theorem index_of_short (nonempty : 0 < s.data.size) (short : s.data.size < s.bankSize) (bank : Nat)
    {offset : Nat} (within : offset < s.bankSize) : s.index bank offset = offset % s.data.size := by
  have one : s.count = 1 := Nat.div_eq_of_lt_le (by omega) (by omega)
  rw [index, one, Nat.mod_one, Nat.zero_mul, Nat.zero_add, Nat.mod_eq_of_lt within]

theorem place?_of_empty (empty : s.data.size = 0) (bank offset : Nat) :
    s.place? bank offset = none :=
  dif_neg (Nat.not_lt.mpr (Nat.le_of_eq empty))

/-- Whatever the bytes and the size of the banks, each pair of a bank and an offset names a byte if
there is one, the same as the pair within the limits does, and 64 bits are enough to find it. A
write is seen at the pairs that name its byte and at no others, and the bytes stay as many as they
are. Full banks have one pair within the limits for each byte. Bytes that do not fill a bank repeat
in it, each after all of them. Where there are none, ones are read and nothing is written. -/
theorem store_exact (s : Banks) (wide : 0 < s.bankSize) :
    (0 < s.data.size → ∀ bank offset,
      (∃ i, s.place? bank offset = some i ∧ s.data[i.val]? = some (s.read bank offset)) ∧
      s.read bank offset = s.read (bank % s.count) (offset % s.bankSize) ∧
      (s.data.size < 1 <<< 63 → s.bankSize < 1 <<< 64 →
        bank % s.count * s.bankSize + offset % s.bankSize < 1 <<< 64) ∧
      ∀ v bank' offset', (s.write bank offset v).read bank' offset' =
        if s.place? bank offset = s.place? bank' offset' then v else s.read bank' offset') ∧
    (∀ bank offset v, (s.write bank offset v).data.size = s.data.size) ∧
    (∀ n, 0 < n → s.data.size = n * s.bankSize → s.count = n ∧
      ∀ i, ∃! p : Nat × Nat, p.1 < s.count ∧ p.2 < s.bankSize ∧ s.place? p.1 p.2 = some i) ∧
    (0 < s.data.size → s.data.size < s.bankSize → ∀ bank, ∀ offset < s.bankSize,
      (s.place? bank offset).map Fin.val = some (offset % s.data.size)) ∧
    (s.data.size = 0 → ∀ bank offset v,
      s.read bank offset = 0xFF ∧ s.write bank offset v = s) := by
  refine ⟨fun nonempty bank offset => ⟨?_, ?_, ?_, ?_⟩, write_size s, ?_, ?_, ?_⟩
  · exact ⟨_, place?_of_nonempty nonempty bank offset, getElem?_index nonempty bank offset⟩
  · rw [read, read, place?_mod]
  · exact fun short word => index_fits nonempty wide short word bank offset
  · exact fun v bank' offset' => read_write nonempty bank offset bank' offset' v
  · intro n positive full
    rw [count_of_full full wide]
    exact ⟨rfl, existsUnique_place full wide positive⟩
  · intro nonempty short bank offset within
    rw [map_place? nonempty, index_of_short nonempty short bank within]
  · intro empty bank offset v
    have nowhere := place?_of_empty empty bank offset
    exact ⟨by rw [read, nowhere], by rw [write, nowhere]⟩

/-- Three bytes in a bank of eight, and two full banks of two. -/
theorem store_exact_of_three :
    let s : Banks := ⟨#[1, 2, 3], 8⟩
    let t : Banks := ⟨#[1, 2, 3, 4], 2⟩
    (s.place? 5 7).map Fin.val = some 1 ∧ (s.write 5 7 9).read 0 1 = 9 ∧
      (s.write 5 7 9).read 0 2 = 3 ∧ t.count = 2 ∧
      ∃! p : Nat × Nat, p.1 < t.count ∧ p.2 < t.bankSize ∧ t.place? p.1 p.2 = some 3 := by
  intro s t
  obtain ⟨bytes, -, -, short, -⟩ := store_exact s (by decide)
  obtain ⟨-, -, full, -⟩ := store_exact t (by decide)
  obtain ⟨-, -, -, written⟩ := bytes (by decide) 5 7
  obtain ⟨count, places⟩ := full 2 (by decide) rfl
  exact ⟨(short (by decide) (by decide) 5 7 (by decide)).trans (by decide),
    (written 9 0 1).trans (if_pos (by decide)),
    (written 9 0 2).trans (by rw [if_neg (by decide)]; decide), count, places 3⟩

end DotMatrix.Banks
