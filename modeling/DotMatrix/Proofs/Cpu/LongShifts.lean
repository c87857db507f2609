import DotMatrix.Proofs.Cpu.LongNumbers
import Mathlib.Data.Nat.Bitwise

namespace DotMatrix

namespace Radix

theorem value_concat (r : Radix) (lower : List UInt8) (b : UInt8) :
    r.value (lower ++ [b]) = r.value lower + r.base ^ lower.length * r.digit b := by
  rw [value, List.map_append, Nat.ofDigits_append, List.length_map]
  exact congrArg (r.value lower + r.base ^ lower.length * ·) Nat.ofDigits_singleton

theorem binary_value_cons (b : UInt8) (rest : List UInt8) :
    binary.value (b :: rest) = b.toNat + 256 * binary.value rest :=
  binary.value_cons b rest

theorem binary_value_concat (lower : List UInt8) (b : UInt8) :
    binary.value (lower ++ [b]) = binary.value lower + 256 ^ lower.length * b.toNat :=
  binary.value_concat lower b

theorem binary_value_lt (bytes : List UInt8) : binary.value bytes < 256 ^ bytes.length :=
  value_lt (r := binary) fun _ _ => trivial

/-- Numbers of one length are told apart by what they are worth. -/
theorem eq_of_binary_value {xs ys : List UInt8} (length : xs.length = ys.length)
    (same : binary.value xs = binary.value ys) : xs = ys := by
  have digits : ∀ zs : List UInt8, ∀ d ∈ zs.map UInt8.toNat, d < 256 := by
    intro zs d member
    obtain ⟨b, -, rfl⟩ := List.mem_map.mp member
    exact b.toNat_lt
  have lengths : (xs.map UInt8.toNat).length = (ys.map UInt8.toNat).length := by
    rw [List.length_map, List.length_map, length]
  have equal := Nat.ofDigits_inj_of_len_eq (by decide) lengths (digits xs) (digits ys) same
  exact List.map_injective_iff.mpr (fun _ _ => UInt8.toNat_inj.mp) equal

/-- The highest bit of a number, its sign in two's complement. -/
def sign (bytes : List UInt8) : Bool := (binary.value bytes).testBit (8 * bytes.length - 1)

/-- The number in two's complement. -/
def signed (bytes : List UInt8) : Int := Int.bmod (binary.value bytes) (256 ^ bytes.length)

theorem bmod_of_lt {x half : Nat} (low : x < half) : Int.bmod x (2 * half) = x :=
  Int.bmod_eq_of_le (by omega) (by omega)

theorem bmod_of_le {x half : Nat} (high : half ≤ x) (small : x < 2 * half) :
    Int.bmod x (2 * half) = x - 2 * half := by
  rw [Int.bmod_def, Int.emod_eq_of_lt (by omega) (by omega), if_neg (by omega)]
  omega

theorem sign_concat (lower : List UInt8) (b : UInt8) :
    sign (lower ++ [b]) = b.toNat.testBit 7 := by
  have small : binary.value lower < 2 ^ (8 * lower.length) := by
    rw [Nat.pow_mul]
    exact binary_value_lt lower
  have place : 8 * (lower ++ [b]).length - 1 = 8 * lower.length + 7 := by
    rw [List.length_append, List.length_singleton]
    omega
  have value : binary.value (lower ++ [b]) =
      2 ^ (8 * lower.length) * b.toNat + binary.value lower := by
    rw [value_concat, Nat.pow_mul, Nat.add_comm]
    rfl
  rw [sign, place, value, Nat.testBit_two_pow_mul_add _ small, if_neg (by omega),
    Nat.add_sub_cancel_left]

/-- The numbers of one length are so many that half of them, and an even number, have the highest
bit. -/
theorem exists_half {bytes : List UInt8} (nonempty : bytes ≠ []) :
    ∃ half, 256 ^ bytes.length = 2 * (2 * half) ∧
      sign bytes = decide (2 * half ≤ binary.value bytes) := by
  obtain ⟨k, places⟩ : ∃ k, 8 * bytes.length = k + 2 :=
    ⟨8 * bytes.length - 2, by have := List.length_pos_iff.mpr nonempty; omega⟩
  have size : 256 ^ bytes.length = 2 ^ (k + 1 + 1) := by
    rw [← places, Nat.pow_mul]
  have small := binary_value_lt bytes
  rw [size] at small
  refine ⟨2 ^ k, by rw [size]; ring, ?_⟩
  rw [← pow_succ', sign, places, Nat.add_sub_assoc (by decide)]
  by_cases high : 2 ^ (k + 1) ≤ binary.value bytes
  · rw [decide_eq_true high]
    exact Nat.testBit_of_two_pow_le_and_two_pow_add_one_gt high small
  · rw [decide_eq_false high]
    exact Nat.testBit_lt_two_pow (Nat.not_le.mp high)

end Radix

namespace Shift

/-- A left shift puts the carry below the byte and lets the highest bit fall out. -/
theorem move_rl (v : UInt8) (c : Bool) :
    (rl.move v c).1.toNat + 256 * (rl.move v c).2.toNat = 2 * v.toNat + c.toNat := by
  have small := v.toNat_lt
  have double : (v <<< 1).toNat = (v.toNat % 128) <<< 1 := by
    simp only [UInt8.toNat_shiftLeft, UInt8.reduceToNat, Nat.reduceMod, Nat.shiftLeft_eq]
    omega
  have value : (rl.move v c).1.toNat = 2 * (v.toNat % 128) + c.toNat := by
    rw [move, UInt8.toNat_or, double, Computed.toNat_toUInt8,
      ← Nat.shiftLeft_add_eq_or_of_lt c.toNat_lt, Nat.shiftLeft_eq]
    omega
  have out : (rl.move v c).2.toNat = v.toNat / 128 % 2 := Nat.toNat_testBit _ 7
  omega

/-- A right shift puts the carry above the byte and lets the lowest bit fall out. -/
theorem move_rr (v : UInt8) (c : Bool) :
    2 * (rr.move v c).1.toNat + (rr.move v c).2.toNat = v.toNat + 256 * c.toNat := by
  have small : v.toNat / 2 < 2 ^ 7 := Nat.div_lt_of_lt_mul v.toNat_lt
  have above : (c.toUInt8 <<< 7).toNat = 2 ^ 7 * c.toNat := by cases c <;> rfl
  have below : (v >>> 1).toNat = v.toNat / 2 := by simp [Nat.shiftRight_eq_div_pow]
  have value : (rr.move v c).1.toNat = 2 ^ 7 * c.toNat + v.toNat / 2 := by
    rw [move, UInt8.toNat_or, above, below, Nat.or_comm, Nat.two_pow_add_eq_or_of_lt small]
  have out : (rr.move v c).2.toNat = v.toNat / 1 % 2 := Nat.toNat_testBit _ 0
  omega

/-- The left shift that lets a zero in is the rotate with its carry clear. -/
theorem move_sla (v : UInt8) (c : Bool) : sla.move v c = rl.move v false :=
  Prod.ext UInt8.or_zero.symm rfl

theorem move_srl (v : UInt8) (c : Bool) : srl.move v c = rr.move v false :=
  Prod.ext UInt8.or_zero.symm rfl

/-- An arithmetic shift keeps the highest bit in its place. -/
theorem move_sra (v : UInt8) (c : Bool) : sra.move v c = rr.move v (v.toNat.testBit 7) := by
  have kept : v &&& (0x80 : UInt8) = (v.toNat.testBit 7).toUInt8 <<< 7 := by
    apply UInt8.toNat_inj.mp
    rw [UInt8.toNat_and]
    refine (Nat.and_two_pow _ 7).trans ?_
    cases v.toNat.testBit 7 <;> rfl
  simp only [move, kept]

/-- The bytes of a long number shifted one after the other, the first of them by a shift of its own.
The flags go on from one byte to the next. -/
def chain (first next : Shift) : List UInt8 → UInt8 → List UInt8 × UInt8
  | [], f => ([], f)
  | v :: rest, f =>
    let r := first.apply v f
    let others := chain next next rest r.flags
    (r.value :: others.1, others.2)

/-- To the left, from the lowest byte up. -/
def chainLeft (first : Shift) (bytes : List UInt8) (f : UInt8) : List UInt8 × UInt8 :=
  chain first rl bytes f

/-- To the right, from the highest byte down. -/
def chainRight (first : Shift) (bytes : List UInt8) (f : UInt8) : List UInt8 × UInt8 :=
  let after := chain first rr bytes.reverse f
  (after.1.reverse, after.2)

theorem apply_carry (op : Shift) (v f : UInt8) :
    Flags.has (op.apply v f).flags Flags.carry = (op.move v (Flags.has f Flags.carry)).2 :=
  Flags.has_carry_pack _ _ _ _

variable {first next : Shift} {bytes rest : List UInt8} {v f g : UInt8}

theorem chain_length : (chain first next bytes f).1.length = bytes.length := by
  induction bytes generalizing first f with
  | nil => rfl
  | cons v rest ih => exact congrArg (· + 1) ih

theorem chainRight_length : (chainRight first bytes f).1.length = bytes.length := by
  rw [chainRight, List.length_reverse, chain_length, List.length_reverse]

/-- A chain that begins with a shift of its own goes as one that is told another carry. -/
theorem chain_of_move (same : first.move v (Flags.has f Flags.carry) =
    next.move v (Flags.has g Flags.carry)) :
    chain first next (v :: rest) f = chain next next (v :: rest) g := by
  simp only [chain, apply, same]

/-- A whole number shifted left, as a chain of rotates with the first carry clear. -/
theorem chainLeft_sla (nonempty : bytes ≠ []) : chainLeft sla bytes f = chainLeft rl bytes 0 := by
  obtain ⟨v, rest, rfl⟩ := List.exists_cons_of_ne_nil nonempty
  exact chain_of_move (move_sla v _)

/-- To the right a chain begins with the highest byte. -/
theorem chainRight_of_move {lower : List UInt8} (same : first.move v (Flags.has f Flags.carry) =
    rr.move v (Flags.has g Flags.carry)) :
    chainRight first (lower ++ [v]) f = chainRight rr (lower ++ [v]) g := by
  simp only [chainRight, List.reverse_concat, chain_of_move same]

/-- A whole number shifted right, as a chain of rotates with the first carry clear. -/
theorem chainRight_srl (nonempty : bytes ≠ []) : chainRight srl bytes f = chainRight rr bytes 0 := by
  obtain ⟨lower, v, rfl⟩ := (List.eq_nil_or_concat' bytes).resolve_left nonempty
  exact chainRight_of_move (move_srl v _)

/-- An arithmetic shift is a chain of rotates told the sign. -/
theorem chainRight_sra (nonempty : bytes ≠ []) : chainRight sra bytes f =
    chainRight rr bytes (Flags.pack false false false (Radix.sign bytes)) := by
  obtain ⟨lower, v, rfl⟩ := (List.eq_nil_or_concat' bytes).resolve_left nonempty
  refine chainRight_of_move ?_
  rw [Flags.has_carry_pack, Radix.sign_concat, move_sra]

/-- The bytes that come out and the last carry hold the doubled number. -/
theorem chainLeft_balance (bytes : List UInt8) (f : UInt8) :
    Radix.binary.value (chainLeft rl bytes f).1 +
        256 ^ bytes.length * (Flags.has (chainLeft rl bytes f).2 Flags.carry).toNat =
      2 * Radix.binary.value bytes + (Flags.has f Flags.carry).toNat := by
  unfold chainLeft
  induction bytes generalizing f with
  | nil => simp [chain]
  | cons v rest ih =>
    have here := move_rl v (Flags.has f Flags.carry)
    have further := ih (rl.apply v f).flags
    rw [apply_carry] at further
    simp only [chain, Radix.binary_value_cons, List.length_cons, pow_succ']
    refine (Radix.carried here further).trans ?_
    ring

/-- Twice the number that comes out and the bit that falls out are the number with the first carry
above it. The induction is on the bytes as they are met, from the highest down. -/
theorem chain_rr_balance (bytes : List UInt8) (f : UInt8) :
    2 * Radix.binary.value (chain rr rr bytes f).1.reverse +
        (Flags.has (chain rr rr bytes f).2 Flags.carry).toNat =
      Radix.binary.value bytes.reverse + 256 ^ bytes.length * (Flags.has f Flags.carry).toNat := by
  induction bytes generalizing f with
  | nil => simp [chain]
  | cons v rest ih =>
    have here := move_rr v (Flags.has f Flags.carry)
    have further := ih (rr.apply v f).flags
    rw [apply_carry] at further
    simp only [chain, List.reverse_cons, Radix.binary_value_concat, List.length_reverse,
      chain_length, List.length_cons, pow_succ']
    generalize Radix.binary.value (chain rr rr rest _).1.reverse = result at further ⊢
    generalize (Flags.has (chain rr rr rest _).2 Flags.carry).toNat = out at further ⊢
    calc 2 * (result + 256 ^ rest.length * (rr.apply v f).value.toNat) + out
        = (2 * result + out) + 256 ^ rest.length * (2 * (rr.apply v f).value.toNat) := by ring
      _ = Radix.binary.value rest.reverse + 256 ^ rest.length *
            (2 * (rr.move v (Flags.has f Flags.carry)).1.toNat +
              (rr.move v (Flags.has f Flags.carry)).2.toNat) := by rw [further, apply]; ring
      _ = _ := by rw [here]; ring

theorem chainRight_balance (bytes : List UInt8) (f : UInt8) :
    2 * Radix.binary.value (chainRight rr bytes f).1 +
        (Flags.has (chainRight rr bytes f).2 Flags.carry).toNat =
      Radix.binary.value bytes + 256 ^ bytes.length * (Flags.has f Flags.carry).toNat := by
  have balance := chain_rr_balance bytes.reverse f
  rwa [List.reverse_reverse, List.length_reverse] at balance

/-- What is left of a long number: as many bytes, worth so much, and the carry that says which bit
fell out. -/
structure Leaves (after : List UInt8 × UInt8) (bytes : List UInt8) (value : Nat) (out : Bool) :
    Prop where
  length : after.1.length = bytes.length
  value : Radix.binary.value after.1 = value
  carry : Flags.has after.2 Flags.carry = out

/-- A left shift of a long number doubles it, and what falls out is its sign. -/
theorem leaves_rl (nonempty : bytes ≠ []) (f : UInt8) : Leaves (chainLeft rl bytes f) bytes
    ((2 * Radix.binary.value bytes + (Flags.has f Flags.carry).toNat) % 256 ^ bytes.length)
    (Radix.sign bytes) := by
  obtain ⟨half, size, sign⟩ := Radix.exists_half nonempty
  have length : (chainLeft rl bytes f).1.length = bytes.length := chain_length
  have small := Radix.binary_value_lt (chainLeft rl bytes f).1
  rw [length] at small
  obtain ⟨value, carry⟩ := Radix.eq_mod_of_carry small (chainLeft_balance bytes f)
  refine ⟨length, value, carry.trans ?_⟩
  have bit := (Flags.has f Flags.carry).toNat_lt
  rw [sign, size, decide_eq_decide]
  omega

/-- A right shift halves it, and what falls out is its lowest bit. -/
theorem leaves_rr (nonempty : bytes ≠ []) (f : UInt8) : Leaves (chainRight rr bytes f) bytes
    (Radix.binary.value bytes / 2 + 256 ^ bytes.length / 2 * (Flags.has f Flags.carry).toNat)
    ((Radix.binary.value bytes).testBit 0) := by
  obtain ⟨half, size, -⟩ := Radix.exists_half nonempty
  have balance := chainRight_balance bytes f
  rw [size, Nat.mul_assoc] at balance
  rw [size, Nat.mul_div_cancel_left _ (by decide), Nat.testBit_zero]
  have bit := (Flags.has (chainRight rr bytes f).2 Flags.carry).toNat_lt
  refine ⟨chainRight_length, by omega, ?_⟩
  cases out : Flags.has (chainRight rr bytes f).2 Flags.carry with
  | false =>
    rw [out, Bool.toNat_false] at balance
    exact (decide_eq_false (by omega)).symm
  | true =>
    rw [out, Bool.toNat_true] at balance
    exact (decide_eq_true (by omega)).symm

/-- What an arithmetic shift leaves is half the number in two's complement, rounded down. -/
theorem signed_half (nonempty : bytes ≠ []) {after : List UInt8}
    (length : after.length = bytes.length)
    (value : Radix.binary.value after =
      Radix.binary.value bytes / 2 + 256 ^ bytes.length / 2 * (Radix.sign bytes).toNat) :
    Radix.signed after = Radix.signed bytes / 2 := by
  obtain ⟨half, size, sign⟩ := Radix.exists_half nonempty
  have small := Radix.binary_value_lt bytes
  rw [size] at small
  rw [size, Nat.mul_div_cancel_left _ (by decide), sign] at value
  rw [Radix.signed, Radix.signed, length, size]
  by_cases high : 2 * half ≤ Radix.binary.value bytes
  · rw [decide_eq_true high, Bool.toNat_true] at value
    rw [Radix.bmod_of_le (by omega) (by omega), Radix.bmod_of_le high small]
    omega
  · rw [decide_eq_false high, Bool.toNat_false] at value
    rw [Radix.bmod_of_lt (by omega), Radix.bmod_of_lt (by omega)]
    omega

/-- A left shift through the carry is undone by a right shift through the carry. -/
theorem chainRight_chainLeft (bytes : List UInt8) (f : UInt8) :
    let turned := chainLeft rl bytes f
    (chainRight rr turned.1 turned.2).1 = bytes ∧
      Flags.has (chainRight rr turned.1 turned.2).2 Flags.carry = Flags.has f Flags.carry := by
  intro turned
  have length : turned.1.length = bytes.length := chain_length
  have left := chainLeft_balance bytes f
  have right := chainRight_balance turned.1 turned.2
  rw [length, left] at right
  have first := (Flags.has f Flags.carry).toNat_lt
  have last := (Flags.has (chainRight rr turned.1 turned.2).2 Flags.carry).toNat_lt
  refine ⟨Radix.eq_of_binary_value (chainRight_length.trans length) (by omega), ?_⟩
  exact Function.LeftInverse.injective Bool.ofNat_toNat (by omega)

end Shift

namespace Core

/-- Operands shifted by the program one after the other, the first of them by a shift of its own. -/
def shiftEach (first next : Shift) : List Operand → Core → Core
  | [], s => s
  | r :: rest, s => shiftEach next next rest ((BitInstruction.shift first r).run s)

variable {q r : Operand} {rs : List Operand}

theorem withComputed_operand (register : r ≠ .memory) (s : Core) (c : Computed) :
    (s.withComputed r c).operand r = c.value := by
  cases r <;> first | rfl | contradiction

theorem withComputed_operand_of_ne (other : q ≠ r) (kept : q ≠ .memory) (register : r ≠ .memory)
    (s : Core) (c : Computed) : (s.withComputed r c).operand q = s.operand q := by
  cases q <;> cases r <;> first | rfl | contradiction

theorem shiftEach_operand (spared : q ∉ rs) (kept : q ≠ .memory) (registers : .memory ∉ rs)
    (first next : Shift) (s : Core) : (s.shiftEach first next rs).operand q = s.operand q := by
  induction rs generalizing first s with
  | nil => rfl
  | cons r rest ih =>
    rw [List.mem_cons, not_or] at spared registers
    obtain ⟨other, others⟩ := spared
    obtain ⟨register, below⟩ := registers
    rw [shiftEach, ih others below]
    exact withComputed_operand_of_ne other kept (Ne.symm register) s _

/-- The instructions take a number that lies in registers through the chain of its bytes. -/
theorem shiftEach_chain (distinct : rs.Nodup) (registers : .memory ∉ rs) (first next : Shift)
    (s : Core) : (rs.map (s.shiftEach first next rs).operand, (s.shiftEach first next rs).cpu.f) =
      Shift.chain first next (rs.map s.operand) s.cpu.f := by
  induction rs generalizing first s with
  | nil => rfl
  | cons r rest ih =>
    obtain ⟨single, others⟩ := List.nodup_cons.mp distinct
    rw [List.mem_cons, not_or] at registers
    obtain ⟨register, below⟩ := registers
    have shifted : (BitInstruction.shift first r).run s =
        s.withComputed r (first.apply (s.operand r) s.cpu.f) := rfl
    have flags : (s.withComputed r (first.apply (s.operand r) s.cpu.f)).cpu.f =
        (first.apply (s.operand r) s.cpu.f).flags := withOperand_f _ _ _
    have kept : rest.map (s.withComputed r (first.apply (s.operand r) s.cpu.f)).operand =
        rest.map s.operand := by
      refine List.map_congr_left fun q member => ?_
      have other : q ≠ r := ne_of_mem_of_not_mem member single
      have inside : q ≠ .memory := ne_of_mem_of_not_mem member below
      exact withComputed_operand_of_ne other inside (Ne.symm register) s _
    have further := ih others below next (s.withComputed r (first.apply (s.operand r) s.cpu.f))
    rw [kept, flags] at further
    simp only [List.map_cons, Shift.chain, shiftEach, shifted, ← further,
      shiftEach_operand single (Ne.symm register) below,
      withComputed_operand (Ne.symm register)]

end Core

namespace Shift

/-- Long numbers are doubled and halved exactly, byte by byte, and the carry is the bit that falls
out. A shift through the carry at the beginning puts the carry that is there before into the end
that becomes free, and the two chains that begin so undo each other. The instructions do this to
numbers in registers. -/
theorem long_shifts :
    (∀ (bytes : List UInt8) (f : UInt8), bytes ≠ [] →
      let x := Radix.binary.value bytes
      let size := 256 ^ bytes.length
      let c := (Flags.has f Flags.carry).toNat
      Leaves (chainLeft sla bytes f) bytes (2 * x % size) (Radix.sign bytes) ∧
      Leaves (chainLeft rl bytes f) bytes ((2 * x + c) % size) (Radix.sign bytes) ∧
      Leaves (chainRight srl bytes f) bytes (x / 2) (x.testBit 0) ∧
      Leaves (chainRight rr bytes f) bytes (x / 2 + size / 2 * c) (x.testBit 0) ∧
      Leaves (chainRight sra bytes f) bytes (x / 2 + size / 2 * (Radix.sign bytes).toNat)
        (x.testBit 0) ∧
      Radix.signed (chainRight sra bytes f).1 = Radix.signed bytes / 2 ∧
      let turned := chainLeft rl bytes f
      (chainRight rr turned.1 turned.2).1 = bytes ∧
      Flags.has (chainRight rr turned.1 turned.2).2 Flags.carry = Flags.has f Flags.carry) ∧
    ∀ (s : Core) (first next : Shift) (rs : List Operand), rs.Nodup → .memory ∉ rs →
      (rs.map (s.shiftEach first next rs).operand, (s.shiftEach first next rs).cpu.f) =
        chain first next (rs.map s.operand) s.cpu.f := by
  refine ⟨fun bytes f nonempty => ?_, fun s first next rs distinct registers =>
    Core.shiftEach_chain distinct registers first next s⟩
  have clear : (Flags.has 0 Flags.carry).toNat = 0 := by decide
  have doubled := leaves_rl nonempty 0
  have halved := leaves_rr nonempty 0
  have kept := leaves_rr nonempty (Flags.pack false false false (Radix.sign bytes))
  rw [clear, Nat.add_zero, ← chainLeft_sla nonempty] at doubled
  rw [clear, Nat.mul_zero, Nat.add_zero, ← chainRight_srl nonempty] at halved
  rw [Flags.has_carry_pack, ← chainRight_sra nonempty] at kept
  exact ⟨doubled, leaves_rl nonempty f, halved, leaves_rr nonempty f, kept,
    signed_half nonempty kept.length kept.value, chainRight_chainLeft bytes f⟩

/-- An odd negative number, and the same in two registers, with the carry set. -/
theorem long_shifts_of_negative :
    let bytes : List UInt8 := [0x01, 0x80]
    let s : Core := ⟨{ Cpu.blank with f := Flags.carry, h := 0x80, l := 0x01 }, .boot .standard none⟩
    let t := s.shiftEach rl rl [.l, .h]
    bytes ≠ [] ∧ Radix.binary.value (chainLeft rl bytes Flags.carry).1 = 0x0003 ∧
      Radix.binary.value (chainRight rr bytes Flags.carry).1 = 0xC000 ∧
      Radix.signed bytes = -32767 ∧ Radix.signed (chainRight sra bytes Flags.carry).1 = -16384 ∧
      [Operand.l, .h].Nodup ∧ Operand.memory ∉ [.l, .h] ∧
      ([t.cpu.l, t.cpu.h], t.cpu.f) = ([0x03, 0x00], Flags.zero ||| Flags.carry) := by
  intro bytes s t
  have nonempty : bytes ≠ [] := List.cons_ne_nil _ _
  have distinct : [Operand.l, .h].Nodup := by decide
  have registers : Operand.memory ∉ [Operand.l, .h] := by decide
  have negative : Radix.signed bytes = -32767 := by decide
  obtain ⟨-, left, -, right, -, signed, -⟩ := long_shifts.1 bytes Flags.carry nonempty
  rw [negative] at signed
  have pair := long_shifts.2 s rl rl [.l, .h] distinct registers
  exact ⟨nonempty, left.value.trans (by decide), right.value.trans (by decide), negative, signed,
    distinct, registers, pair.trans (by decide)⟩

end Shift

end DotMatrix
