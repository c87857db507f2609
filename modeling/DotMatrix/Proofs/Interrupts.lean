import DotMatrix.Interrupts
import DotMatrix.Proofs.Bytes

namespace DotMatrix.Interrupts

/-- The line is in the set. -/
def has (s : Interrupts) (i : Nat) : Bool := s.bits.toNat.testBit i

/-- The set of one line. -/
def line (i : Fin 8) : Interrupts := ⟨1 <<< UInt8.ofNat i⟩

theorem has_eq_getLsbD (s : Interrupts) (i : Nat) : s.has i = s.bits.toBitVec.getLsbD i := rfl

/-- The set, or nothing. -/
def when (s : Interrupts) (b : Bool) : Interrupts := if b then s else empty

theorem has_of_ge (s : Interrupts) {i : Nat} (beyond : 8 ≤ i) : s.has i = false :=
  testBit_of_ge s.bits beyond

@[simp] theorem has_empty (i : Nat) : empty.has i = false := by simp [has, empty]

@[simp] theorem has_union (s t : Interrupts) (i : Nat) :
    (s.union t).has i = (s.has i || t.has i) := by
  simp only [has, union, UInt8.toNat_or, Nat.testBit_or]

@[simp] theorem has_diff (s t : Interrupts) (i : Nat) :
    (s.diff t).has i = (s.has i && !t.has i) := by
  simp only [has_eq_getLsbD, diff, UInt8.toBitVec_and, UInt8.toBitVec_not, BitVec.getLsbD_and,
    BitVec.getLsbD_not]
  by_cases within : i < 8
  · simp [within]
  · simp [BitVec.getLsbD_of_ge _ _ (Nat.le_of_not_lt within)]

@[simp] theorem has_when (s : Interrupts) (b : Bool) (i : Nat) : (s.when b).has i = (b && s.has i) := by
  cases b <;> simp [when]

theorem union_empty (s : Interrupts) : s.union empty = s := by
  cases s
  simp [union, empty]

theorem diff_empty (s : Interrupts) : s.diff empty = s := by
  cases s
  simp [diff, empty]

theorem union_assoc (s t u : Interrupts) : (s.union t).union u = s.union (t.union u) := by
  simp only [union, UInt8.or_assoc]

/-- Of a byte the five lowest bits count. -/
theorem has_ofByte (b : UInt8) (i : Nat) :
    (ofByte b).has i = (decide (i < 5) && b.toNat.testBit i) := by
  simp only [has, ofByte, UInt8.toNat_and, Nat.testBit_and]
  rw [show (0x1F : UInt8).toNat = 2 ^ 5 - 1 from rfl, Nat.testBit_two_pow_sub_one, Bool.and_comm]

/-- Only the five lines that exist. -/
def Known (s : Interrupts) : Prop := ∀ i, 5 ≤ i → s.has i = false

theorem known_ofByte (b : UInt8) : (ofByte b).Known := by
  intro i beyond
  rw [has_ofByte, decide_eq_false (Nat.not_lt.mpr beyond), Bool.false_and]

theorem known_of_mem {s : Interrupts} (named : s ∈ [vblank, stat, timer, serial, joypad]) :
    s.Known := by
  have same := (by decide : ∀ s ∈ [vblank, stat, timer, serial, joypad], s = ofByte s.bits) s named
  rw [same]
  exact known_ofByte s.bits

theorem Known.union {s t : Interrupts} (first : s.Known) (second : t.Known) : (s.union t).Known := by
  intro i beyond
  rw [has_union, first i beyond, second i beyond, Bool.or_self]

theorem Known.when {s : Interrupts} (known : s.Known) (b : Bool) : (s.when b).Known := by
  intro i beyond
  rw [has_when, known i beyond, Bool.and_false]

theorem Known.diff {s : Interrupts} (known : s.Known) (t : Interrupts) : (s.diff t).Known := by
  intro i beyond
  rw [has_diff, known i beyond, Bool.false_and]

theorem has_line (i : Fin 8) (j : Nat) : (line i).has j = decide (i.val = j) := by
  by_cases within : j < 8
  · exact (by decide : ∀ i j : Fin 8, (line i).has j = decide (i.val = j.val)) i ⟨j, within⟩
  · rw [has_of_ge _ (by omega), eq_comm, decide_eq_false_iff_not]
    omega

theorem line_injective {i j : Fin 8} (same : line i = line j) : i = j := by
  have member : (line j).has i = true := by rw [← same, has_line, decide_eq_true rfl]
  rw [has_line] at member
  exact Fin.ext (of_decide_eq_true member).symm

/-- What is served first is a single line of the set. -/
theorem first?_eq_some {s t : Interrupts} (first : s.first? = some t) :
    ∃ i : Fin 8, s.has i = true ∧ t = line i := by
  obtain ⟨i, lowest, rfl⟩ := Option.map_eq_some_iff.mp first
  exact ⟨i, List.find?_some (p := fun i : Fin 8 => s.has i) lowest, rfl⟩

theorem isEmpty_of_first? {s t : Interrupts} (first : s.first? = some t) : s.isEmpty = false := by
  obtain ⟨i, member, _⟩ := first?_eq_some first
  by_contra nothing
  have zero : s.bits = 0 := by simpa [isEmpty] using nothing
  simp [has, zero] at member

end DotMatrix.Interrupts
