import DotMatrix.Proofs.Cpu.LongNumbers

namespace DotMatrix

theorem toInt_toInt8 (v : UInt8) :
    v.toInt8.toInt = if 2 * v.toNat < 256 then (v.toNat : Int) else v.toNat - 256 :=
  BitVec.toInt_eq_toNat_cond v.toBitVec

/-- A word moves by what the byte counts with its sign. -/
theorem toNat_add_signExtend (x : UInt16) (v : UInt8) :
    ((x + signExtend v).toNat : Int) = (x.toNat + v.toInt8.toInt) % 65536 := by
  have small := v.toNat_lt
  have filled : (0xFF00 : UInt16).toNat = 65280 := rfl
  rw [toInt_toInt8, signExtend]
  by_cases positive : v < 0x80
  · have below : v.toNat < 128 := positive
    rw [if_pos positive, if_pos (by omega), UInt16.toNat_add, UInt8.toNat_toUInt16]
    omega
  · have above : ¬v.toNat < 128 := positive
    rw [if_neg positive, if_neg (by omega), UInt16.toNat_add, UInt16.toNat_add,
      UInt8.toNat_toUInt16, filled]
    omega

namespace Cpu

/-- L and the lower byte of a word added in the accumulator. -/
def sumLower (s : Cpu) (w : UInt16) : Cpu := { s with a := s.l }.operate .add (low w)

/-- H and the upper byte added after that, with the carry. -/
def sumUpper (s : Cpu) (w : UInt16) : Cpu :=
  { s.sumLower w with a := s.h }.operate .adc (high w)

/-- HL and a word added byte by byte. The flags are those after the upper bytes, but for the zero
flag, which is left alone. -/
def sumByBytes (s : Cpu) (w : UInt16) : ComputedWord where
  value := word (s.sumUpper w).a (s.sumLower w).a
  flags := Flags.pack (Flags.has s.f Flags.zero) false (Flags.has (s.sumUpper w).f Flags.half)
    (s.sumUpper w).carry

/-- The flags of a signed distance from SP: those of its byte added to the lower byte of SP in the
accumulator. -/
def offsetFlags (s : Cpu) (distance : UInt8) : UInt8 :=
  let lower := { s with a := low s.sp }.operate .add distance
  Flags.pack false false (Flags.has lower.f Flags.half) lower.carry

section

variable (s : Cpu) (w : UInt16)

theorem toNat_hl : s.hl.toNat = s.h.toNat * 256 + s.l.toNat := toNat_word _ _

/-- The sum of the lower bytes and its carry hold the whole of it. -/
theorem sumLower_exact : (s.sumLower w).a.toNat + 256 * (s.sumLower w).carry.toNat =
    s.l.toNat + w.toNat % 256 := by
  rw [← toNat_low]
  exact Computed.sum_exact s.l (low w) false

theorem sumUpper_exact : (s.sumUpper w).a.toNat + 256 * (s.sumUpper w).carry.toNat =
    s.h.toNat + w.toNat / 256 + (s.sumLower w).carry.toNat := by
  rw [← toNat_high]
  exact Computed.sum_exact s.h (high w) (s.sumLower w).carry

/-- The half carry of a word is that of its upper byte. -/
theorem sumUpper_half : Flags.has (s.sumUpper w).f Flags.half =
    decide (s.h.toNat % 16 + w.toNat / 256 % 16 + (s.sumLower w).carry.toNat > 15) := by
  rw [← toNat_high]
  exact Flags.has_half_pack _ _ _ _

/-- The adder of words carries out of its bits 11 and 15 as the adder of bytes does out of its bits 3
and 7 when it comes to the upper bytes. -/
theorem sum_eq_sumByBytes : ComputedWord.sum s.hl w s.f = s.sumByBytes w := by
  have lower := s.sumLower_exact w
  have upper := s.sumUpper_exact w
  have bit := (s.sumLower w).carry.toNat_lt
  have few := (s.sumLower w).a.toNat_lt
  have small := (s.sumUpper w).a.toNat_lt
  have beside := s.l.toNat_lt
  have value : s.hl + w = word (s.sumUpper w).a (s.sumLower w).a := by
    apply UInt16.toNat_inj.mp
    rw [UInt16.toNat_add, toNat_word, toNat_hl]
    omega
  have half : decide (s.hl.toNat % 0x1000 + w.toNat % 0x1000 > 0x0FFF) =
      Flags.has (s.sumUpper w).f Flags.half := by
    rw [sumUpper_half, decide_eq_decide, toNat_hl]
    omega
  have carry : decide (s.hl.toNat + w.toNat > 0xFFFF) = (s.sumUpper w).carry := by
    rw [toNat_hl]
    cases out : (s.sumUpper w).carry with
    | false =>
      rw [out, Bool.toNat_false] at upper
      exact decide_eq_false (by omega)
    | true =>
      rw [out, Bool.toNat_true] at upper
      exact decide_eq_true (by omega)
  rw [ComputedWord.sum, value, half, carry, sumByBytes]

/-- The flags of a moved stack pointer are those of the sum of its lower byte. -/
theorem moved_flags (distance : UInt8) :
    (ComputedWord.moved s.sp distance).flags = s.offsetFlags distance := by
  have half : Flags.has ({ s with a := low s.sp }.operate .add distance).f Flags.half =
      decide ((low s.sp).toNat % 16 + distance.toNat % 16 + 0 > 15) := Flags.has_half_pack _ _ _ _
  have carry : ({ s with a := low s.sp }.operate .add distance).carry =
      decide ((low s.sp).toNat + distance.toNat + 0 > 255) := Flags.has_carry_pack _ _ _ _
  rw [offsetFlags, half, carry, toNat_low, Nat.mod_mod_of_dvd _ (by decide)]
  rfl

end

/-- Words are added as if byte by byte: to HL with the flags of the upper bytes, and to SP a signed
byte with the flags of the lower one. The three instructions put the sum and the flags in their
places and change nothing else but the place in the program. -/
theorem word_sums :
    (∀ (s : Cpu) (w : UInt16), ComputedWord.sum s.hl w s.f = s.sumByBytes w) ∧
    (∀ (s : Cpu) (e : UInt8),
      ((ComputedWord.moved s.sp e).value.toNat : Int) = (s.sp.toNat + e.toInt8.toInt) % 65536 ∧
      (ComputedWord.moved s.sp e).flags = s.offsetFlags e) ∧
    ∀ s : Core,
      (∀ p, let sum := s.cpu.sumByBytes (s.cpu.pair p)
        Instruction.run (.addHL p) s =
          ⟨{ s.cpu with h := high sum.value, l := low sum.value, f := sum.flags }, s.bus⟩) ∧
      let moved := ComputedWord.moved s.cpu.sp s.immediate
      Instruction.run .addSP s =
        ⟨{ s.cpu with sp := moved.value, f := moved.flags, pc := s.cpu.pc + 1 }, s.bus⟩ ∧
      Instruction.run .loadHLSP s =
        ⟨{ s.cpu with
            h := high moved.value, l := low moved.value, f := moved.flags, pc := s.cpu.pc + 1 },
          s.bus⟩ := by
  refine ⟨sum_eq_sumByBytes, fun s e => ⟨toNat_add_signExtend s.sp e, s.moved_flags e⟩,
    fun s => ⟨fun p => ?_, rfl, rfl⟩⟩
  rw [Instruction.run, sum_eq_sumByBytes]
  rfl

end Cpu

end DotMatrix
