import DotMatrix.Proofs.Cpu.Calls

namespace DotMatrix

theorem word_and (a b c d : UInt8) : word a b &&& word c d = word (a &&& c) (b &&& d) := by
  have small (v : UInt8) : v.toNat < 2 ^ 8 := v.toNat_lt
  apply UInt16.toNat_inj.mp
  simp only [UInt16.toNat_and, toNat_word, Nat.mul_comm _ 256]
  apply Nat.eq_of_testBit_eq
  intro i
  simp only [Nat.testBit_and, show 256 = 2 ^ 8 from rfl, Nat.testBit_two_pow_mul_add _ (small _)]
  split <;> simp only [UInt8.toNat_and, Nat.testBit_and]

namespace Flags

variable {f : UInt8}

/-- The four flags make up the upper half. -/
theorem pack_has (f : UInt8) :
    pack (has f zero) (has f subtract) (has f half) (has f carry) = f &&& 0xF0 :=
  forall_byte (P := fun f =>
    pack (has f zero) (has f subtract) (has f half) (has f carry) = f &&& 0xF0) (by decide +kernel) f

/-- A tidy byte is no more than its four flags. -/
theorem Tidy.eq_pack (tidy : Tidy f) :
    f = pack (has f zero) (has f subtract) (has f half) (has f carry) := by
  rw [pack_has, tidy]

theorem Tidy.low_clear (tidy : Tidy f) : f &&& 0x0F = 0 := by
  have apart : (0xF0 : UInt8) &&& 0x0F = 0 := by decide
  rw [← tidy, UInt8.and_assoc, apart, UInt8.and_zero]

/-- A test sees no more of a mask than the four flags. -/
theorem Tidy.has_mask (tidy : Tidy f) (mask : UInt8) : has f mask = has f (mask &&& 0xF0) := by
  rw [has, has, UInt8.and_comm mask, ← UInt8.and_assoc, tidy]

end Flags

/-- Only the lower half of the flags is lost on the way through the pair. -/
theorem Cpu.af_withAF (s : Cpu) (w : UInt16) : (s.withAF w).af = w &&& 0xFFF0 := by
  have whole : high w &&& 0xFF = high w := UInt8.and_neg_one
  have mask : (0xFFF0 : UInt16) = word 0xFF 0xF0 := by decide
  conv_rhs => rw [← word_high_low w, mask, word_and, whole]
  rfl

namespace Core

open Bus (Plain)
open Flags

variable {s : Core}

/-- What is pushed of AF comes back as it was. -/
theorem pop_push_af (upper : Plain (s.cpu.sp - 1)) (lower : Plain (s.cpu.sp - 2))
    (tidy : Tidy s.cpu.f) :
    (Instruction.run (.pop .af) (Instruction.run (.push .af) s)).cpu = s.cpu := by
  have top : (s.push s.cpu.af).top = s.cpu.af := top_of_pushed upper lower rfl rfl rfl
  have dropped : (s.push s.cpu.af).drop = ⟨s.cpu, (s.push s.cpu.af).bus⟩ :=
    drop_of_pushed s.cpu.af
  simp only [Instruction.run, Cpu.stackPair, top, dropped]
  exact Cpu.withStackPair_stackPair tidy .af

/-- In every state that a processor comes to, F holds its four flags and nothing else. So a test of
F sees no other bit, AF reads as it was set but for the lower half of F, and AF on the stack carries
the four flags and comes back whole. -/
theorem Reach.only_flags (reach : s.Reach) :
    let pushed := Instruction.run (.push .af) s
    let packed := pack (has s.cpu.f zero) (has s.cpu.f subtract) (has s.cpu.f half) (has s.cpu.f carry)
    s.cpu.f &&& 0x0F = 0 ∧ s.cpu.f = packed ∧
    (∀ mask, has s.cpu.f mask = has s.cpu.f (mask &&& 0xF0)) ∧
    (∀ w, (s.cpu.withAF w).af = w &&& 0xFFF0) ∧ s.cpu.withAF s.cpu.af = s.cpu ∧
    pushed.bus = (s.bus.write (s.cpu.sp - 1) s.cpu.a).write (s.cpu.sp - 2) packed ∧
    (Plain (s.cpu.sp - 1) → Plain (s.cpu.sp - 2) →
      (Instruction.run (.pop .af) pushed).cpu = s.cpu) := by
  intro pushed packed
  have tidy := reach.tidy
  refine ⟨tidy.low_clear, tidy.eq_pack, tidy.has_mask, s.cpu.af_withAF,
    Cpu.withStackPair_stackPair tidy .af, ?_, fun upper lower => pop_push_af upper lower tidy⟩
  change (s.bus.write (s.cpu.sp - 1) (high s.cpu.af)).write (s.cpu.sp - 2) (low s.cpu.af) = _
  rw [Cpu.af, high_word, low_word, show packed = s.cpu.f from tidy.eq_pack.symm]

/-- A processor that has restarted, as it does where there is no cartridge. -/
theorem only_flags_of_restart :
    let s := (Core.mk (.boot .standard) (.boot .standard none)).step.2
    s.cpu.sp = 0xFFFC ∧ s.cpu.f &&& 0x0F = 0 ∧
      (Instruction.run (.pop .af) (Instruction.run (.push .af) s)).cpu = s.cpu := by
  intro s
  have reach : s.Reach := .step (.boot .standard (.boot .standard none))
  obtain ⟨clear, -, -, -, -, -, back⟩ := reach.only_flags
  have stack : s.cpu.sp = 0xFFFC := by decide +kernel
  rw [stack] at back
  exact ⟨stack, clear, back (by decide) (by decide)⟩

end Core

end DotMatrix
