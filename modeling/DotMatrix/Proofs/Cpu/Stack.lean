import DotMatrix.Cpu.Step
import DotMatrix.Proofs.Bus.Memory

namespace DotMatrix.Core

open Bus (Plain Below Room)

/-- The words go on the stack, the first one first. -/
def pushAll (words : List UInt16) (s : Core) : Core := words.foldl push s

/-- Takes `n` words off the stack, in the order in which they come. -/
def popAll : Nat → Core → List UInt16 × Core
  | 0, s => ([], s)
  | n + 1, s =>
    let popped := popAll n s
    (popped.1 ++ [popped.2.top], popped.2.drop)

variable {s t : Core} {words : List UInt16}

@[simp] theorem pushAll_nil (s : Core) : s.pushAll [] = s := rfl

@[simp] theorem pushAll_cons (s : Core) (w : UInt16) (rest : List UInt16) :
    s.pushAll (w :: rest) = (s.push w).pushAll rest := rfl

@[simp] theorem push_cpu (s : Core) (w : UInt16) :
    (s.push w).cpu = { s.cpu with sp := s.cpu.sp - 2 } := rfl

/-- A push changes the two bytes below the stack pointer and nothing else that can be read. -/
theorem push_overwritten (upper : Plain (s.cpu.sp - 1)) (lower : Plain (s.cpu.sp - 2)) (w : UInt16) :
    s.bus.Overwritten (s.push w).bus (Below s.cpu.sp 2) :=
  (Bus.write_pair upper lower s.bus (high w) (low w)).2.2

theorem sub_two_add_one (sp : UInt16) : sp - 2 + 1 = sp - 1 := by grind

/-- The word that was pushed is on top, for as long as its two bytes stay. -/
theorem top_of_pushed (upper : Plain (s.cpu.sp - 1)) (lower : Plain (s.cpu.sp - 2)) {w : UInt16}
    (sp : t.cpu.sp = s.cpu.sp - 2)
    (first : t.bus.read (s.cpu.sp - 1) = (s.push w).bus.read (s.cpu.sp - 1))
    (second : t.bus.read (s.cpu.sp - 2) = (s.push w).bus.read (s.cpu.sp - 2)) : t.top = w := by
  obtain ⟨atHigh, atLow, -⟩ := Bus.write_pair upper lower s.bus (high w) (low w)
  rw [top, sp, sub_two_add_one, first, second, push, atHigh, atLow, word_high_low]

/-- Taking a pushed word off restores the processor, whatever the memory. -/
theorem drop_of_pushed (w : UInt16) {bus : Bus} :
    drop ⟨(s.push w).cpu, bus⟩ = ⟨s.cpu, bus⟩ := by
  simp only [drop, push_cpu, UInt16.sub_add_cancel]

/-- Words that are pushed one after another stay within the room for them. -/
theorem pushAll_overwritten (words : List UInt16) {s : Core}
    (room : Room s.cpu.sp (2 * words.length)) :
    s.bus.Overwritten (s.pushAll words).bus (Below s.cpu.sp (2 * words.length)) := by
  induction words generalizing s with
  | nil => exact .refl _ _
  | cons w rest ih =>
    change Room s.cpu.sp (2 * rest.length + 2) at room
    have pushed := push_overwritten room.pair.1 room.pair.2 w
    have further : (s.push w).bus.Overwritten _ _ := ih room.rest
    have first : 2 ≤ 2 * (w :: rest).length := by
      rw [List.length_cons]
      omega
    exact (pushed.mono fun b => Bus.below_mono first).trans
      (further.mono fun b => Bus.below_rest room.two_le)

/-- The last word pushed comes first, and the stack is where it was. -/
theorem popAll_pushAll (words : List UInt16) {s : Core} (room : Room s.cpu.sp (2 * words.length)) :
    (s.pushAll words).popAll words.length = (words.reverse, ⟨s.cpu, (s.pushAll words).bus⟩) := by
  induction words generalizing s with
  | nil => rfl
  | cons w rest ih =>
    change Room s.cpu.sp (2 * rest.length + 2) at room
    have roomBelow : Room (s.push w).cpu.sp (2 * rest.length) := room.rest
    have kept := pushAll_overwritten rest roomBelow
    have two := room.two_le
    have upper := Bus.toNat_sub_one two
    have lower := Bus.toNat_sub_two two
    -- The words pushed after `w` lie below it in the same memory, so none of them shows in its place.
    have top : top ⟨(s.push w).cpu, ((s.push w).pushAll rest).bus⟩ = w :=
      top_of_pushed room.pair.1 room.pair.2 rfl
        (kept.outside _ (room.not_below (by omega) (by omega)))
        (kept.outside _ (room.not_below (by omega) (by omega)))
    simp only [pushAll_cons, List.length_cons, popAll, ih roomBelow, top, drop_of_pushed,
      List.reverse_cons]

end DotMatrix.Core
