import Mathlib.Data.Nat.Bitwise
import Mathlib.Data.UInt

namespace DotMatrix

/-- A fact about bytes that is checked byte by byte. -/
theorem forall_byte {P : UInt8 → Prop} (table : ∀ n : Fin 256, P (UInt8.ofNat n)) (b : UInt8) :
    P b := by
  have found := table ⟨b.toNat, b.toNat_lt⟩
  rwa [UInt8.ofNat_toNat] at found

theorem or_and_distrib (a b c : UInt8) : (a ||| b) &&& c = a &&& c ||| b &&& c :=
  UInt8.toBitVec_inj.mp BitVec.and_or_distrib_right

theorem testBit_of_ge (b : UInt8) {i : Nat} (beyond : 8 ≤ i) : b.toNat.testBit i = false :=
  BitVec.getLsbD_of_ge b.toBitVec i beyond

theorem testBit_seven (b : UInt8) : b.toNat.testBit 7 = decide (0x80 ≤ b) := by
  have bound := b.toNat_lt
  rw [Nat.testBit_eq_decide_div_mod_eq, decide_eq_decide, UInt8.le_iff_toNat_le,
    show (0x80 : UInt8).toNat = 2 ^ 7 from rfl]
  omega

theorem testBit_compl (b : UInt8) {i : Nat} (within : i < 8) :
    (~~~b).toNat.testBit i = !b.toNat.testBit i := by
  have bit : (~~~b).toBitVec.getLsbD i = (decide (i < 8) && !b.toBitVec.getLsbD i) := by
    rw [UInt8.toBitVec_not, BitVec.getLsbD_not]
  rwa [decide_eq_true within, Bool.true_and] at bit

/-- Bytes that are the same under a mask have the same bits there. -/
theorem testBit_of_and {a b mask : UInt8} (same : a &&& mask = b &&& mask) {i : Nat}
    (inside : mask.toNat.testBit i = true) : a.toNat.testBit i = b.toNat.testBit i := by
  have bits := congrArg (fun c : UInt8 => c.toNat.testBit i) same
  simpa only [UInt8.toNat_and, Nat.testBit_and, inside, Bool.and_true] using bits

theorem toNat_and_mask (v mask : UInt8) (k : Nat) (ones : mask.toNat = 2 ^ k - 1) :
    (v &&& mask).toNat = v.toNat % 2 ^ k := by
  rw [UInt8.toNat_and, ones, Nat.and_two_pow_sub_one_eq_mod]

theorem toNat_mask {n : Nat} (few : n < 8) : (1 <<< UInt8.ofNat n : UInt8).toNat = 2 ^ n :=
  (by decide : ∀ i : Fin 8, (1 <<< UInt8.ofNat i : UInt8).toNat = 2 ^ i.val) ⟨n, few⟩

/-- A byte under a mask of one bit is zero when that bit is clear. -/
theorem and_mask_eq_zero {n : Nat} (few : n < 8) (v : UInt8) :
    v &&& 1 <<< UInt8.ofNat n = 0 ↔ v.toNat.testBit n = false := by
  rw [← UInt8.toNat_inj, UInt8.toNat_and, toNat_mask few, Nat.and_two_pow]
  cases v.toNat.testBit n <;> simp

/-- Some bit is set in the one byte and not in the other. -/
theorem and_compl_bne_zero (a b : UInt8) : (a &&& ~~~b != 0) = true ↔
    ∃ i < 8, a.toNat.testBit i = true ∧ b.toNat.testBit i = false := by
  rw [bne_iff_ne, ne_eq, ← UInt8.toNat_inj]
  constructor
  · intro nonzero
    obtain ⟨i, set⟩ := Nat.exists_testBit_of_ne_zero nonzero
    have within : i < 8 := by
      by_contra beyond
      rw [testBit_of_ge _ (Nat.le_of_not_lt beyond)] at set
      cases set
    rw [UInt8.toNat_and, Nat.testBit_and, testBit_compl b within, Bool.and_eq_true,
      Bool.not_eq_true'] at set
    exact ⟨i, within, set⟩
  · rintro ⟨i, within, set, clear⟩ zero
    have bit : (a &&& ~~~b).toNat.testBit i = false := by rw [zero]; exact Nat.zero_testBit i
    rw [UInt8.toNat_and, Nat.testBit_and, testBit_compl b within, set, clear] at bit
    cases bit

end DotMatrix
