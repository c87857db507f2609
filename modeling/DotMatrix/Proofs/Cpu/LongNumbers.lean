import DotMatrix.Proofs.Cpu.Flags
import Mathlib.Data.Nat.Digits.Lemmas
import Mathlib.Tactic.Ring

namespace DotMatrix

/-- How long numbers are written in bytes, the lowest first. -/
structure Radix where
  base : Nat
  one_lt : 1 < base
  /-- The bytes that are written. -/
  Valid : UInt8 → Prop
  digit : UInt8 → Nat
  digit_lt : ∀ {b}, Valid b → digit b < base

namespace Radix

/-- Bytes as digits to the base 256. -/
def binary : Radix where
  base := 256
  one_lt := by decide
  Valid _ := True
  digit := UInt8.toNat
  digit_lt _ := UInt8.toNat_lt _

/-- What the bytes are worth together. -/
def value (r : Radix) (bytes : List UInt8) : Nat := Nat.ofDigits r.base (bytes.map r.digit)

@[simp] theorem value_nil (r : Radix) : r.value [] = 0 := rfl

@[simp] theorem value_cons (r : Radix) (b : UInt8) (rest : List UInt8) :
    r.value (b :: rest) = r.digit b + r.base * r.value rest :=
  Nat.ofDigits_cons

theorem value_lt {r : Radix} {bytes : List UInt8} (valid : ∀ b ∈ bytes, r.Valid b) :
    r.value bytes < r.base ^ bytes.length := by
  have digits : ∀ d ∈ bytes.map r.digit, d < r.base := by
    intro d member
    obtain ⟨b, inside, rfl⟩ := List.mem_map.mp member
    exact r.digit_lt (valid b inside)
  simpa only [value, List.length_map] using Nat.ofDigits_lt_base_pow_length r.one_lt digits

end Radix

namespace Cpu

/-- The carry flag. -/
def carry (s : Cpu) : Bool := Flags.has s.f Flags.carry

/-- The same processor with all flags clear. -/
def clearFlags (s : Cpu) : Cpu := { s with f := 0 }

@[simp] theorem clearFlags_carry (s : Cpu) : s.clearFlags.carry = false := by
  change Flags.has 0 Flags.carry = false
  decide

/-- The accumulator and the flags take the result of an operation with `v`. -/
def operate (op : Arithmetic) (s : Cpu) (v : UInt8) : Cpu :=
  s.accumulate (op.apply s.a s.f v)

theorem run_arithmetic (op : Arithmetic) (r : Operand) (s : Core) :
    Instruction.run (.arithmetic op r) s = { s with cpu := s.cpu.operate op (s.operand r) } := rfl

/-- The states after each pair of bytes of two long numbers. The accumulator is loaded with the first
byte of a pair and meets the second; the flags go on from one pair to the next. -/
def chain (step : Cpu → UInt8 → Cpu) (s : Cpu) : List (UInt8 × UInt8) → List Cpu
  | [] => []
  | (x, y) :: rest =>
    let t := step { s with a := x } y
    t :: chain step t rest

/-- The same, with another operation on the first pair. -/
def chainFrom (first next : Cpu → UInt8 → Cpu) (s : Cpu) : List (UInt8 × UInt8) → List Cpu
  | [] => []
  | (x, y) :: rest =>
    let t := first { s with a := x } y
    t :: chain next t rest

variable {step : Cpu → UInt8 → Cpu} {s : Cpu} {pairs : List (UInt8 × UInt8)}

theorem chain_length : (s.chain step pairs).length = pairs.length := by
  induction pairs generalizing s with
  | nil => rfl
  | cons p rest ih => exact congrArg (· + 1) ih

/-- The last state of a chain, which starts with the given one if there are no bytes. -/
theorem chain_getLast? (nonempty : pairs ≠ []) :
    (s.chain step pairs).getLast? = some ((s.chain step pairs).getLastD s) := by
  have chained : s.chain step pairs ≠ [] := by
    rw [← List.length_pos_iff, chain_length, List.length_pos_iff]
    exact nonempty
  rw [List.getLast?_eq_some_getLast chained, List.getLastD_eq_getLast?,
    List.getLast?_eq_some_getLast chained]
  rfl

/-- What every step brings about from bytes of a kind holds of every state. -/
theorem chain_forall {P : Cpu → Prop} {Kind : UInt8 → Prop}
    (next : ∀ {s v}, Kind s.a → Kind v → P (step s v)) (written : ∀ p ∈ pairs, Kind p.1 ∧ Kind p.2)
    (s : Cpu) : ∀ t ∈ s.chain step pairs, P t := by
  induction pairs generalizing s with
  | nil => intro t member; cases member
  | cons p rest ih =>
    obtain ⟨first, others⟩ := List.forall_mem_cons.mp written
    intro t member
    rcases List.mem_cons.mp member with rfl | later
    · exact next first.1 first.2
    · exact ih others _ t later

/-- An operation that does not look at the flags goes as one that does with all of them clear. -/
theorem chainFrom_eq_chain {first next : Cpu → UInt8 → Cpu}
    (blind : ∀ t v, first t v = next t.clearFlags v) :
    s.chainFrom first next pairs = s.clearFlags.chain next pairs := by
  cases pairs with
  | nil => rfl
  | cons p rest =>
    simp only [chainFrom, chain, blind]
    rfl

end Cpu

namespace Radix

/-- The states after each pair leave the bytes of the sum in the accumulator, as many as there are
pairs. What goes beyond is the last carry. -/
structure Sum (r : Radix) (pairs : List (UInt8 × UInt8)) (c : Nat) (after : List Cpu) : Prop where
  length : after.length = pairs.length
  value : r.value (after.map Cpu.a) =
    (r.value (pairs.map Prod.fst) + r.value (pairs.map Prod.snd) + c) % r.base ^ pairs.length
  carry : after.getLast?.map Cpu.carry = some (decide
    (r.base ^ pairs.length ≤ r.value (pairs.map Prod.fst) + r.value (pairs.map Prod.snd) + c))

/-- The same for the difference. The last carry is what had to be borrowed. -/
structure Difference (r : Radix) (pairs : List (UInt8 × UInt8)) (c : Nat) (after : List Cpu) :
    Prop where
  length : after.length = pairs.length
  value : (r.value (after.map Cpu.a) : Int) =
    (r.value (pairs.map Prod.fst) - r.value (pairs.map Prod.snd) - c) % (r.base : Int) ^ pairs.length
  carry : after.getLast?.map Cpu.carry = some (decide
    (r.value (pairs.map Prod.fst) < r.value (pairs.map Prod.snd) + c))

/-- A step that adds a byte and the carry. -/
structure Adds (r : Radix) (step : Cpu → UInt8 → Cpu) : Prop where
  valid : ∀ {s v}, r.Valid s.a → r.Valid v → r.Valid (step s v).a
  exact : ∀ {s v}, r.Valid s.a → r.Valid v →
    r.digit (step s v).a + r.base * (step s v).carry.toNat = r.digit s.a + r.digit v + s.carry.toNat

/-- A step that takes a byte and the carry away. -/
structure Subtracts (r : Radix) (step : Cpu → UInt8 → Cpu) : Prop where
  valid : ∀ {s v}, r.Valid s.a → r.Valid v → r.Valid (step s v).a
  exact : ∀ {s v}, r.Valid s.a → r.Valid v →
    r.digit s.a + r.base * (step s v).carry.toNat = r.digit (step s v).a + r.digit v + s.carry.toNat

variable {r : Radix} {step : Cpu → UInt8 → Cpu} {pairs : List (UInt8 × UInt8)}

theorem chain_value_lt (valid : ∀ {s v}, r.Valid s.a → r.Valid v → r.Valid (step s v).a)
    (written : ∀ p ∈ pairs, r.Valid p.1 ∧ r.Valid p.2) (s : Cpu) :
    r.value ((s.chain step pairs).map Cpu.a) < r.base ^ pairs.length := by
  have bound : r.value ((s.chain step pairs).map Cpu.a) <
      r.base ^ ((s.chain step pairs).map Cpu.a).length := by
    refine value_lt fun b member => ?_
    obtain ⟨t, inside, rfl⟩ := List.mem_map.mp member
    exact Cpu.chain_forall (P := fun t => r.Valid t.a) valid written s t inside
  rwa [List.length_map, Cpu.chain_length] at bound

/-- What one place cannot hold is carried on to the places above it. -/
theorem carried {base rest digit place low middle top result above : Nat}
    (here : digit + base * middle = place + low) (further : result + rest * top = above + middle) :
    digit + base * result + base * rest * top = place + base * above + low :=
  calc digit + base * result + base * rest * top
      = digit + base * (result + rest * top) := by ring
    _ = digit + base * middle + base * above := by rw [further]; ring
    _ = place + base * above + low := by rw [here]; ring

/-- The bytes that come out and the last carry hold the whole sum. The carry out of a place is what
the places above it start with. -/
theorem Adds.balance (adds : r.Adds step) (written : ∀ p ∈ pairs, r.Valid p.1 ∧ r.Valid p.2)
    (s : Cpu) :
    r.value ((s.chain step pairs).map Cpu.a) +
        r.base ^ pairs.length * ((s.chain step pairs).getLastD s).carry.toNat =
      r.value (pairs.map Prod.fst) + r.value (pairs.map Prod.snd) + s.carry.toNat := by
  induction pairs generalizing s with
  | nil => simp [Cpu.chain]
  | cons p rest ih =>
    obtain ⟨x, y⟩ := p
    obtain ⟨first, others⟩ := List.forall_mem_cons.mp written
    have here := adds.exact (s := { s with a := x }) first.1 first.2
    have further := ih others (step { s with a := x } y)
    simp only [Cpu.chain, List.map_cons, value_cons, List.getLastD_cons, List.length_cons, pow_succ']
    refine (carried here further).trans ?_
    simp only [Cpu.carry]
    ring

/-- The bytes that come out and the last borrow hold the whole difference. -/
theorem Subtracts.balance (subtracts : r.Subtracts step)
    (written : ∀ p ∈ pairs, r.Valid p.1 ∧ r.Valid p.2) (s : Cpu) :
    r.value (pairs.map Prod.fst) +
        r.base ^ pairs.length * ((s.chain step pairs).getLastD s).carry.toNat =
      r.value ((s.chain step pairs).map Cpu.a) + r.value (pairs.map Prod.snd) + s.carry.toNat := by
  induction pairs generalizing s with
  | nil => simp [Cpu.chain]
  | cons p rest ih =>
    obtain ⟨x, y⟩ := p
    obtain ⟨first, others⟩ := List.forall_mem_cons.mp written
    have here := subtracts.exact (s := { s with a := x }) first.1 first.2
    have further := ih others (step { s with a := x } y)
    simp only [Cpu.chain, List.map_cons, value_cons, List.getLastD_cons, List.length_cons, pow_succ']
    refine (carried here further).trans ?_
    simp only [Cpu.carry]
    ring

/-- From the balance of a sum to its remainder and its carry. -/
theorem eq_mod_of_carry {v size total : Nat} {carry : Bool} (small : v < size)
    (whole : v + size * carry.toNat = total) :
    v = total % size ∧ carry = decide (size ≤ total) := by
  subst whole
  refine ⟨by rw [Nat.add_mul_mod_self_left, Nat.mod_eq_of_lt small], ?_⟩
  cases carry with
  | false => simpa using small
  | true => simp

/-- From the balance of a difference to its remainder and its borrow. -/
theorem eq_emod_of_borrow {v size x y low : Nat} {borrow : Bool} (small : v < size)
    (whole : x + size * borrow.toNat = v + y + low) :
    (v : Int) = (x - y - low) % size ∧ borrow = decide (x < y + low) := by
  have within : (v : Int) % size = v := Int.emod_eq_of_lt (Int.natCast_nonneg v) (mod_cast small)
  cases borrow with
  | false =>
    rw [Bool.toNat_false, Nat.mul_zero] at whole
    have same : (x - y - low : Int) = v := by omega
    exact ⟨by rw [same, within], (decide_eq_false (by omega)).symm⟩
  | true =>
    rw [Bool.toNat_true, Nat.mul_one] at whole
    have same : (x - y - low : Int) = v - size := by omega
    exact ⟨by rw [same, Int.sub_emod_right, within], (decide_eq_true (by omega)).symm⟩

/-- A chain of steps that add leaves the sum of the two numbers. -/
theorem Adds.sum (adds : r.Adds step) (nonempty : pairs ≠ [])
    (written : ∀ p ∈ pairs, r.Valid p.1 ∧ r.Valid p.2) (s : Cpu) :
    r.Sum pairs s.carry.toNat (s.chain step pairs) := by
  obtain ⟨value, carry⟩ :=
    eq_mod_of_carry (chain_value_lt adds.valid written s) (adds.balance written s)
  exact ⟨Cpu.chain_length, value,
    by rw [Cpu.chain_getLast? nonempty, Option.map_some, carry]⟩

/-- A chain of steps that subtract leaves their difference. -/
theorem Subtracts.difference (subtracts : r.Subtracts step) (nonempty : pairs ≠ [])
    (written : ∀ p ∈ pairs, r.Valid p.1 ∧ r.Valid p.2) (s : Cpu) :
    r.Difference pairs s.carry.toNat (s.chain step pairs) := by
  obtain ⟨value, borrow⟩ :=
    eq_emod_of_borrow (chain_value_lt subtracts.valid written s) (subtracts.balance written s)
  exact ⟨Cpu.chain_length, mod_cast value,
    by rw [Cpu.chain_getLast? nonempty, Option.map_some, borrow]⟩

end Radix

namespace Computed

theorem toNat_toUInt8 (b : Bool) : b.toUInt8.toNat = b.toNat := by
  cases b <;> rfl

theorem sum_toNat (a v : UInt8) (carry : Bool) :
    (sum a v carry).value.toNat = (a.toNat + v.toNat + carry.toNat) % 256 := by
  simp [sum, UInt8.toNat_add, toNat_toUInt8]

theorem difference_toNat (a v : UInt8) (carry : Bool) :
    (difference a v carry).value.toNat = (a.toNat + 512 - v.toNat - carry.toNat) % 256 := by
  have small := a.toNat_lt
  have few := v.toNat_lt
  have bit := carry.toNat_le
  simp only [difference, UInt8.toNat_sub, toNat_toUInt8]
  omega

/-- A byte and the carry above it hold the whole sum. -/
theorem sum_exact (a v : UInt8) (carry : Bool) :
    (sum a v carry).value.toNat + 256 * (Flags.has (sum a v carry).flags Flags.carry).toNat =
      a.toNat + v.toNat + carry.toNat := by
  have small := a.toNat_lt
  have few := v.toNat_lt
  have bit := carry.toNat_le
  rw [sum_toNat, sum, Flags.has_carry_pack]
  by_cases beyond : a.toNat + v.toNat + carry.toNat > 255
  · rw [decide_eq_true beyond, Bool.toNat_true]
    omega
  · rw [decide_eq_false beyond, Bool.toNat_false]
    omega

/-- A byte, its borrow and what was taken away balance. -/
theorem difference_exact (a v : UInt8) (carry : Bool) :
    a.toNat + 256 * (Flags.has (difference a v carry).flags Flags.carry).toNat =
      (difference a v carry).value.toNat + v.toNat + carry.toNat := by
  have small := a.toNat_lt
  have few := v.toNat_lt
  have bit := carry.toNat_le
  rw [difference_toNat, difference, Flags.has_carry_pack]
  by_cases under : a.toNat < v.toNat + carry.toNat
  · rw [decide_eq_true under, Bool.toNat_true]
    omega
  · rw [decide_eq_false under, Bool.toNat_false]
    omega

end Computed

namespace Cpu

/-- An addition with carry adds one byte of a chain. -/
theorem adds_adc : Radix.binary.Adds (operate .adc) where
  valid _ _ := trivial
  exact {s v} _ _ := Computed.sum_exact s.a v s.carry

theorem subtracts_sbc : Radix.binary.Subtracts (operate .sbc) where
  valid _ _ := trivial
  exact {s v} _ _ := Computed.difference_exact s.a v s.carry

/-- Plain addition is addition with carry after the flags are cleared. -/
theorem operate_add (s : Cpu) (v : UInt8) : operate .add s v = operate .adc s.clearFlags v := by
  change s.accumulate (.sum s.a v false) = s.accumulate (.sum s.a v s.clearFlags.carry)
  rw [clearFlags_carry]

/-- Plain subtraction is subtraction with carry after the flags are cleared. -/
theorem operate_sub (s : Cpu) (v : UInt8) : operate .sub s v = operate .sbc s.clearFlags v := by
  change s.accumulate (.difference s.a v false) =
    s.accumulate (.difference s.a v s.clearFlags.carry)
  rw [clearFlags_carry]

/-- Numbers of any length are added and taken away exactly, with the carry that is there before. An
operation without carry on the lowest bytes makes that none, whatever the flags. -/
theorem long_arithmetic (s : Cpu) {pairs : List (UInt8 × UInt8)} (nonempty : pairs ≠ []) :
    Radix.binary.Sum pairs s.carry.toNat (s.chain (operate .adc) pairs) ∧
    Radix.binary.Difference pairs s.carry.toNat (s.chain (operate .sbc) pairs) ∧
    Radix.binary.Sum pairs 0 (s.chainFrom (operate .add) (operate .adc) pairs) ∧
    Radix.binary.Difference pairs 0 (s.chainFrom (operate .sub) (operate .sbc) pairs) := by
  have written : ∀ p ∈ pairs, Radix.binary.Valid p.1 ∧ Radix.binary.Valid p.2 :=
    fun _ _ => ⟨trivial, trivial⟩
  refine ⟨adds_adc.sum nonempty written s, subtracts_sbc.difference nonempty written s, ?_, ?_⟩
  · have sum := adds_adc.sum nonempty written s.clearFlags
    rw [clearFlags_carry] at sum
    rwa [chainFrom_eq_chain operate_add]
  · have difference := subtracts_sbc.difference nonempty written s.clearFlags
    rw [clearFlags_carry] at difference
    rwa [chainFrom_eq_chain operate_sub]

/-- Full bytes with a carry on top: the lower operand and the carry together are more than a byte. -/
theorem long_arithmetic_of_full_bytes :
    let s := { Cpu.blank with f := Flags.carry }
    let pairs : List (UInt8 × UInt8) := [(0xFF, 0xFF), (0xFF, 0x00)]
    pairs ≠ [] ∧ s.carry = true ∧
      (s.chain (operate .adc) pairs).map Cpu.a = [0xFF, 0x00] ∧
      Radix.binary.Sum pairs 1 (s.chain (operate .adc) pairs) ∧
      (s.chain (operate .sbc) pairs).map Cpu.a = [0xFF, 0xFE] ∧
      Radix.binary.Difference pairs 1 (s.chain (operate .sbc) pairs) := by
  intro s pairs
  have nonempty : pairs ≠ [] := List.cons_ne_nil _ _
  have set : s.carry = true := by decide
  obtain ⟨sum, difference, -⟩ := long_arithmetic s nonempty
  rw [set] at sum difference
  exact ⟨nonempty, set, by decide, sum, by decide, difference⟩

end Cpu

end DotMatrix
