import DotMatrix.Proofs.Cpu.LongNumbers

namespace DotMatrix

namespace Radix

/-- Two decimal digits in a byte, the higher one in the upper half. -/
def decimal : Radix where
  base := 100
  one_lt := by decide
  Valid b := b.toNat / 16 ≤ 9 ∧ b.toNat % 16 ≤ 9
  digit b := 10 * (b.toNat / 16) + b.toNat % 16
  digit_lt valid := by omega

end Radix

namespace Computed

/-- Whether an adjustment mends the lower digit. -/
def mendsLower (a f : UInt8) : Bool :=
  Flags.has f Flags.half || (!Flags.has f Flags.subtract && a.toNat % 16 > 9)

/-- Whether the upper digit is mended. -/
def mendsUpper (a f : UInt8) : Bool :=
  Flags.has f Flags.carry || (!Flags.has f Flags.subtract && a.toNat > 0x99)

variable {a f v : UInt8} {c : Bool}

/-- The carry after mending says whether the upper digit was mended. -/
theorem decimalAdjust_carry (a f : UInt8) :
    Flags.has (decimalAdjust a f).flags Flags.carry = mendsUpper a f :=
  Flags.has_carry_pack _ _ _ _

theorem decimalAdjust_zero (a f : UInt8) :
    Flags.has (decimalAdjust a f).flags Flags.zero = decide ((decimalAdjust a f).value = 0) :=
  Flags.has_zero_pack _ _ _ _

theorem toNat_decimalAdjust_added (added : Flags.has f Flags.subtract = false) :
    (decimalAdjust a f).value.toNat =
      (a.toNat + 6 * (mendsLower a f).toNat + 0x60 * (mendsUpper a f).toNat) % 256 := by
  have value : (decimalAdjust a f).value =
      a + ((if mendsLower a f then 6 else 0) + (if mendsUpper a f then 0x60 else 0)) := by
    simp only [decimalAdjust, mendsLower, mendsUpper, added, Bool.false_eq_true, if_false]
  rw [value]
  cases mendsLower a f <;> cases mendsUpper a f <;> simp [UInt8.toNat_add]

/-- After a subtraction each digit that is mended goes down by six. -/
theorem toNat_decimalAdjust_subtracted (subtracted : Flags.has f Flags.subtract = true) :
    (decimalAdjust a f).value.toNat =
      (a.toNat + 256 - 6 * (mendsLower a f).toNat - 0x60 * (mendsUpper a f).toNat) % 256 := by
  have value : (decimalAdjust a f).value =
      a - ((if mendsLower a f then 6 else 0) + (if mendsUpper a f then 0x60 else 0)) := by
    simp only [decimalAdjust, mendsLower, mendsUpper, subtracted, if_true]
  rw [value]
  cases mendsLower a f <;> cases mendsUpper a f <;> simp [UInt8.toNat_sub] <;> omega

/-- The lower digit borrows when it is too small for what is taken from it. -/
theorem mendsLower_difference :
    mendsLower (difference a v c).value (difference a v c).flags = true ↔
      a.toNat % 16 < v.toNat % 16 + c.toNat := by
  simp [mendsLower, difference]

section Digits

variable (first : Radix.decimal.Valid a) (second : Radix.decimal.Valid v)

include first second

/-- The lower digit is mended if the two lower digits make ten, the half carry set or not. -/
theorem mendsLower_sum : mendsLower (sum a v c).value (sum a v c).flags = true ↔
    9 < a.toNat % 16 + v.toNat % 16 + c.toNat := by
  have bit := c.toNat_le
  simp only [Radix.decimal] at first second
  simp only [mendsLower, sum_toNat]
  simp only [sum, Flags.has_half_pack, Flags.has_subtract_pack, Bool.not_false, Bool.true_and,
    Bool.or_eq_true, decide_eq_true_eq]
  omega

/-- The upper digit of a sum is mended when the sum is above 99. -/
theorem mendsUpper_sum : mendsUpper (sum a v c).value (sum a v c).flags = true ↔
    99 < Radix.decimal.digit a + Radix.decimal.digit v + c.toNat := by
  have bit := c.toNat_le
  simp only [Radix.decimal] at first second ⊢
  simp only [mendsUpper, sum_toNat]
  simp only [sum, Flags.has_carry_pack, Flags.has_subtract_pack, Bool.not_false, Bool.true_and,
    Bool.or_eq_true, decide_eq_true_eq]
  omega

/-- A mended sum of decimal bytes is their decimal sum, with its carry. -/
theorem decimalAdjust_sum :
    let r := decimalAdjust (sum a v c).value (sum a v c).flags
    Radix.decimal.Valid r.value ∧
      Radix.decimal.digit r.value + 100 * (Flags.has r.flags Flags.carry).toNat =
        Radix.decimal.digit a + Radix.decimal.digit v + c.toNat := by
  intro r
  have bit := c.toNat_le
  have lower := mendsLower_sum first second (c := c)
  have upper := mendsUpper_sum first second (c := c)
  have value : r.value.toNat = _ := toNat_decimalAdjust_added (Flags.has_subtract_pack _ _ _ _)
  rw [decimalAdjust_carry]
  rw [sum_toNat] at value
  simp only [Radix.decimal] at first second upper ⊢
  generalize mendsLower _ _ = l at lower value
  generalize mendsUpper _ _ = u at upper value ⊢
  cases l <;> cases u <;>
    simp only [Bool.false_eq_true, false_iff, true_iff, Bool.toNat_true, Bool.toNat_false]
      at lower upper value ⊢ <;>
    omega

/-- The upper digit of a difference is mended when the difference is below zero. -/
theorem mendsUpper_difference :
    mendsUpper (difference a v c).value (difference a v c).flags = true ↔
      Radix.decimal.digit a < Radix.decimal.digit v + c.toNat := by
  have bit := c.toNat_le
  simp only [Radix.decimal] at first second ⊢
  simp [mendsUpper, difference]
  omega

/-- A mended difference of decimal bytes is their decimal difference, with its borrow. -/
theorem decimalAdjust_difference :
    let r := decimalAdjust (difference a v c).value (difference a v c).flags
    Radix.decimal.Valid r.value ∧
      Radix.decimal.digit a + 100 * (Flags.has r.flags Flags.carry).toNat =
        Radix.decimal.digit r.value + Radix.decimal.digit v + c.toNat := by
  intro r
  have bit := c.toNat_le
  have lower := mendsLower_difference (a := a) (v := v) (c := c)
  have upper := mendsUpper_difference first second (c := c)
  have value : r.value.toNat = _ := toNat_decimalAdjust_subtracted (Flags.has_subtract_pack _ _ _ _)
  rw [decimalAdjust_carry]
  rw [difference_toNat] at value
  simp only [Radix.decimal] at first second upper ⊢
  generalize mendsLower _ _ = l at lower value
  generalize mendsUpper _ _ = u at upper value ⊢
  cases l <;> cases u <;>
    simp only [Bool.false_eq_true, false_iff, true_iff, Bool.toNat_true, Bool.toNat_false]
      at lower upper value ⊢ <;>
    omega

end Digits

end Computed

namespace Cpu

/-- The accumulator takes the result of an operation with `v`, and then that result mended. -/
def operateDecimal (op : Arithmetic) (s : Cpu) (v : UInt8) : Cpu :=
  let t := s.operate op v
  t.accumulate (.decimalAdjust t.a t.f)

/-- Mending an operation on a register is one operation on decimal bytes. -/
theorem run_decimalAdjust (op : Arithmetic) (r : Operand) (s : Core) :
    Instruction.run .decimalAdjust (Instruction.run (.arithmetic op r) s) =
      { s with cpu := s.cpu.operateDecimal op (s.operand r) } := rfl

/-- A mended sum adds one decimal byte of a chain. -/
theorem adds_decimal : Radix.decimal.Adds (operateDecimal .adc) where
  valid first second := (Computed.decimalAdjust_sum first second).1
  exact first second := (Computed.decimalAdjust_sum first second).2

theorem subtracts_decimal : Radix.decimal.Subtracts (operateDecimal .sbc) where
  valid first second := (Computed.decimalAdjust_difference first second).1
  exact first second := (Computed.decimalAdjust_difference first second).2

theorem operateDecimal_zero (op : Arithmetic) (s : Cpu) (v : UInt8) :
    Flags.has (operateDecimal op s v).f Flags.zero = true ↔ (operateDecimal op s v).a = 0 := by
  rw [operateDecimal, accumulate, Computed.decimalAdjust_zero, decide_eq_true_eq]

/-- Long numbers of decimal digits are added and taken away exactly if every result is mended. -/
theorem decimal_arithmetic (s : Cpu) {pairs : List (UInt8 × UInt8)} (nonempty : pairs ≠ [])
    (digits : ∀ p ∈ pairs, Radix.decimal.Valid p.1 ∧ Radix.decimal.Valid p.2) :
    Radix.decimal.Sum pairs s.carry.toNat (s.chain (operateDecimal .adc) pairs) ∧
    Radix.decimal.Difference pairs s.carry.toNat (s.chain (operateDecimal .sbc) pairs) ∧
    ∀ op ∈ [Arithmetic.adc, .sbc], ∀ t ∈ s.chain (operateDecimal op) pairs,
      Radix.decimal.Valid t.a ∧ (Flags.has t.f Flags.zero = true ↔ t.a = 0) := by
  refine ⟨adds_decimal.sum nonempty digits s, subtracts_decimal.difference nonempty digits s, ?_⟩
  intro op member
  have valid : ∀ {t v}, Radix.decimal.Valid t.a → Radix.decimal.Valid v →
      Radix.decimal.Valid (operateDecimal op t v).a := by
    rcases List.mem_pair.mp member with rfl | rfl
    · exact adds_decimal.valid
    · exact subtracts_decimal.valid
  exact chain_forall (fun first second => ⟨valid first second, operateDecimal_zero _ _ _⟩) digits s

/-- Four nines, and a carry beside them. -/
theorem decimal_arithmetic_of_nines :
    let s := { Cpu.blank with f := Flags.carry }
    let pairs : List (UInt8 × UInt8) := [(0x99, 0x99), (0x00, 0x99)]
    pairs ≠ [] ∧ (∀ p ∈ pairs, Radix.decimal.Valid p.1 ∧ Radix.decimal.Valid p.2) ∧ s.carry = true ∧
      (s.chain (operateDecimal .adc) pairs).map Cpu.a = [0x99, 0x00] ∧
      Radix.decimal.Sum pairs 1 (s.chain (operateDecimal .adc) pairs) ∧
      (s.chain (operateDecimal .sbc) pairs).map Cpu.a = [0x99, 0x00] ∧
      Radix.decimal.Difference pairs 1 (s.chain (operateDecimal .sbc) pairs) := by
  intro s pairs
  have nonempty : pairs ≠ [] := List.cons_ne_nil _ _
  have digits : ∀ p ∈ pairs, Radix.decimal.Valid p.1 ∧ Radix.decimal.Valid p.2 := by
    simp [pairs, Radix.decimal]
  have set : s.carry = true := by decide
  obtain ⟨sum, difference, -⟩ := decimal_arithmetic s nonempty digits
  rw [set] at sum difference
  exact ⟨nonempty, digits, set, by decide, sum, by decide, difference⟩

end Cpu

end DotMatrix
