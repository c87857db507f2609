import Mathlib.Data.UInt
import Mathlib.Tactic.SplitIfs

namespace DotMatrix

/-- What a computation stops at when no number may wrap and every place must exist. -/
inductive Crash
  /-- An index at or past the end. -/
  | index (i size : Nat)
  /-- A result that does not fit its bits, or a shift by all of them. -/
  | overflow
  /-- A difference below zero, or a number below zero where none may be. -/
  | negative
  | division
  /-- A loop that has not come to its end. -/
  | endless
  deriving DecidableEq

/-- A computation that may crash instead of returning. -/
abbrev Checked := Except Crash

namespace Checked

/-- A place among `size`. -/
def place (size i : Nat) : Checked (Fin size) :=
  if h : i < size then .ok ⟨i, h⟩ else .error (.index i size)

/-- A table with another entry at one of its places. -/
def put {α : Type} {size : Nat} (table : Vector α size) (i : Nat) (a : α) : Checked (Vector α size) :=
  if h : i < size then .ok (table.set i a h) else .error (.index i size)

/-- A number of some bits. -/
def fit (bits n : Nat) : Checked Nat := if n < 2 ^ bits then .ok n else .error .overflow

/-- A sum of some bits. -/
def plus (bits a b : Nat) : Checked Nat := fit bits (a + b)

/-- A product of some bits. -/
def times (bits a b : Nat) : Checked Nat := fit bits (a * b)

/-- A difference that must not be negative. -/
def minus (a b : Nat) : Checked Nat := if b ≤ a then .ok (a - b) else .error .negative

/-- A division, which crashes at zero. -/
def quotient (a b : Nat) : Checked Nat := if b = 0 then .error .division else .ok (a / b)

/-- A remainder, which crashes at zero as well. -/
def remainder (a b : Nat) : Checked Nat := if b = 0 then .error .division else .ok (a % b)

/-- A shift by less than the number of bits. -/
def shiftRight (bits a n : Nat) : Checked Nat := if n < bits then .ok (a >>> n) else .error .overflow

/-- The byte with one bit set. -/
def bit (n : Nat) : Checked UInt8 := if n < 8 then .ok (1 <<< UInt8.ofNat n) else .error .overflow

/-- A signed number of 16 bits. -/
def signed (n : Int) : Checked Int :=
  if -2 ^ 15 ≤ n ∧ n < 2 ^ 15 then .ok n else .error .overflow

/-- A signed number that is used as an unsigned one. -/
def unsigned (n : Int) : Checked Nat := if 0 ≤ n then .ok n.toNat else .error .negative

/-- The places from `start` to before `stop`. -/
def stretch (size start stop : Nat) : Checked Unit :=
  if start ≤ stop ∧ stop ≤ size then .ok () else .error (.index stop size)

/-- A place counted from `start` on. -/
def offset (n start size : Nat) : Checked (Fin size) := do place size (← minus n start)

section Lemmas

variable {α β : Type} {bits size start a b n i : Nat}

@[simp] theorem ok_bind (x : α) (f : α → Checked β) : (Except.ok x >>= f) = f x := rfl

@[simp] theorem pure_eq (x : α) : (pure x : Checked α) = .ok x := rfl

theorem place_ok (h : i < size) : place size i = .ok ⟨i, h⟩ := dif_pos h

theorem put_ok (table : Vector α size) (a : α) (h : i < size) :
    put table i a = .ok (table.set i a h) :=
  dif_pos h

theorem fit_ok (fits : n < 2 ^ bits) : fit bits n = .ok n := if_pos fits

theorem plus_ok (fits : a + b < 2 ^ bits) : plus bits a b = .ok (a + b) := fit_ok fits

theorem times_ok (fits : a * b < 2 ^ bits) : times bits a b = .ok (a * b) := fit_ok fits

theorem minus_ok (below : b ≤ a) : minus a b = .ok (a - b) := if_pos below

theorem quotient_ok (positive : 0 < b) : quotient a b = .ok (a / b) :=
  if_neg (Nat.pos_iff_ne_zero.mp positive)

theorem remainder_ok (positive : 0 < b) : remainder a b = .ok (a % b) :=
  if_neg (Nat.pos_iff_ne_zero.mp positive)

theorem shiftRight_ok (few : n < bits) : shiftRight bits a n = .ok (a >>> n) := if_pos few

theorem bit_ok (few : n < 8) : bit n = .ok (1 <<< UInt8.ofNat n) := if_pos few

theorem signed_ok {n : Int} (lower : -32768 ≤ n) (upper : n < 32768) : signed n = .ok n :=
  if_pos ⟨lower, upper⟩

theorem unsigned_ok {n : Int} (nonneg : 0 ≤ n) : unsigned n = .ok n.toNat := if_pos nonneg

theorem stretch_ok {stop : Nat} (ordered : start ≤ stop) (inside : stop ≤ size) :
    stretch size start stop = .ok () :=
  if_pos ⟨ordered, inside⟩

theorem offset_ok (above : start ≤ n) (below : n - start < size) :
    offset n start size = .ok ⟨n - start, below⟩ := by
  rw [offset, minus_ok above, ok_bind, place_ok below]

/-- A loop whose every round succeeds. -/
theorem foldlM_ok {f : β → α → Checked β} {g : β → α → β} {l : List α}
    (round : ∀ a ∈ l, ∀ b, f b a = .ok (g b a)) (b : β) : l.foldlM f b = .ok (l.foldl g b) := by
  induction l generalizing b with
  | nil => rfl
  | cons a l ih =>
    rw [List.foldlM_cons, round a List.mem_cons_self, ok_bind,
      ih (fun a member => round a (List.mem_cons_of_mem _ member)), List.foldl_cons]

theorem ofFnM_ok {f : Fin n → Checked α} {g : Fin n → α} (each : ∀ i, f i = .ok (g i)) :
    Vector.ofFnM f = .ok (Vector.ofFn g) := by
  rw [funext each]
  exact Vector.ofFnM_pure

end Lemmas

end Checked

end DotMatrix
