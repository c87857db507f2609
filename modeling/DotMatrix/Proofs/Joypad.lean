import DotMatrix.Joypad
import DotMatrix.Proofs.Bus.Footprint
import DotMatrix.Proofs.Bytes
import DotMatrix.Proofs.History
import Mathlib.Data.List.DropRight

namespace DotMatrix

namespace Bus

theorem read_p1 (s : Bus) : s.read 0xFF00 = s.registers.stored .p1 ||| 0xC0 :=
  read_register (by decide) s

/-- The joypad's register is seen to change only under a write to itself. -/
theorem not_touches_p1 (a : UInt16) : ¬Touches a 0xFF00 := by
  intro touches
  generalize reached : (0xFF00 : UInt16) = b at touches
  have place : b.toNat = 0xFF00 := by rw [← reached]; rfl
  cases touches with
  | echo images | original images => rw [echoes_iff] at images; omega
  | control _ places =>
    simp only [inWindow_iff, UInt16.le_iff_toNat_le, UInt16.reduceToNat] at places
    omega
  | window _ places => rw [inWindow_iff] at places; omega
  | sprites _ last =>
    simp only [UInt16.le_iff_toNat_le, UInt16.reduceToNat] at last
    omega
  | counter => cases place

/-- A program reaches two bits of the joypad's register and no more. -/
theorem read_p1_write (s : Bus) (a : UInt16) (v : UInt8) : (s.write a v).read 0xFF00 =
    if a = 0xFF00 then s.read 0xFF00 &&& 0xCF ||| v &&& 0x30 else s.read 0xFF00 := by
  split
  · rename_i here
    have cell : Cell.ofAddress 0xFF00 = .register .p1 := by decide
    have hidden : (0xC0 : UInt8) &&& 0xCF = 0xC0 := by decide
    have written : (s.write 0xFF00 v).registers.stored .p1 =
        s.registers.stored .p1 &&& 0xCF ||| v &&& 0x30 := by
      rw [write, writeBy, cell, writeCell, writeRegister, follow_registers, store,
        Registers.stored_put_self]
      rfl
    rw [here, read_p1, read_p1, written, or_and_distrib, hidden, UInt8.or_assoc, UInt8.or_assoc,
      UInt8.or_comm 0xC0]
  · rename_i elsewhere
    by_contra changed
    exact not_touches_p1 a (touches_of_changed (Ne.symm elsewhere) changed)

end Bus

namespace Joypad

/-- The mask of the four lines. -/
theorem testBit_low {i : Nat} (within : i < 4) : (0x0F : UInt8).toNat.testBit i = true :=
  (by decide : ∀ i < 4, (0x0F : UInt8).toNat.testBit i = true) i within

/-- A line is low when one of its two buttons is held and its group selected. -/
theorem testBit_linesFor (s : Joypad) (select : UInt8) {i : Nat} (within : i < 4) :
    (s.linesFor select).toNat.testBit i =
      !(s.held.toNat.testBit i && !select.toNat.testBit 4 ||
        s.held.toNat.testBit (i + 4) && !select.toNat.testBit 5) := by
  have low := testBit_low within
  have directions : select &&& 0x10 = 0 ↔ select.toNat.testBit 4 = false :=
    and_mask_eq_zero (n := 4) (by decide) select
  have actions : select &&& 0x20 = 0 ↔ select.toNat.testBit 5 = false :=
    and_mask_eq_zero (n := 5) (by decide) select
  have upper : (s.held >>> 4).toNat.testBit i = s.held.toNat.testBit (i + 4) := by
    rw [UInt8.toNat_shiftRight, Nat.testBit_shiftRight, Nat.add_comm]
    rfl
  unfold linesFor
  simp only [directions, actions]
  rw [UInt8.toNat_and, Nat.testBit_and, low, Bool.true_and, testBit_compl _ (by omega),
    UInt8.toNat_or, Nat.testBit_or]
  congr 2
  · split
    · rename_i chosen
      rw [UInt8.toNat_and, Nat.testBit_and, low, chosen]
      rfl
    · rename_i other
      rw [Bool.not_eq_false] at other
      simp [other]
  · split
    · rename_i chosen
      rw [upper, chosen, Bool.not_false, Bool.and_true]
    · rename_i other
      rw [Bool.not_eq_false] at other
      simp [other]

theorem linesFor_low (s : Joypad) (select : UInt8) :
    s.linesFor select &&& 0x0F = s.linesFor select := by
  rw [linesFor, UInt8.and_comm, ← UInt8.and_assoc, UInt8.and_self]

/-- Whether a line that was high is low from now on. -/
def falls (s : Joypad) (bus : Bus) : Bool := s.lines &&& ~~~(s.update bus).1.lines != 0

/-- An update requests the interrupt exactly if a line falls. -/
theorem update_requested (s : Joypad) (bus : Bus) :
    (s.update bus).2.requested = bus.requested.union (Interrupts.joypad.when (s.falls bus)) := by
  unfold falls update
  exact Bus.requested_ite _ _ _

/-- What is on the register of a joypad as the lines follow a selection. -/
theorem update_read (s : Joypad) (bus : Bus) : (s.update bus).2.read 0xFF00 =
    0xC0 ||| (bus.read 0xFF00 &&& 0x30) ||| s.linesFor (bus.read 0xFF00 &&& 0x30) := by
  have shown (b : Bool) (t : Bus) :
      (if b then t.request .joypad else t).read 0xFF00 = t.read 0xFF00 := by
    cases b with
    | true => exact Bus.read_request (by decide) t .joypad
    | false => rfl
  have cell : Cell.ofAddress 0xFF00 = .register .p1 := by decide
  have closed : Register.p1.openBits = 0xC0 := by decide
  unfold update
  rw [shown, Bus.read_store_self cell, closed, ← Bus.read_register cell, UInt8.or_comm,
    UInt8.or_assoc]

/-- An update leaves the lines that the held buttons and the selection make. -/
theorem update_lines (s : Joypad) (bus : Bus) :
    (s.update bus).1.lines = s.linesFor (bus.read 0xFF00 &&& 0x30) := by
  rw [Bus.read_register (show Cell.ofAddress 0xFF00 = .register .p1 by decide)]
  rfl

/-- What happens to a joypad and the bus that it is on. -/
inductive Operation
  | press (buttons : UInt8)
  | release (buttons : UInt8)
  | update
  | write (a : UInt16) (v : UInt8)

/-- What an operation does to the joypad and the bus. -/
def apply : Joypad × Bus → Operation → Joypad × Bus
  | (s, bus), .press buttons => (s.press buttons, bus)
  | (s, bus), .release buttons => (s.release buttons, bus)
  | (s, bus), .update => s.update bus
  | (s, bus), .write a v => (s, bus.write a v)

/-- The operations in order, from a joypad that is not touched. -/
def run (start : Bus) (ops : List Operation) : Joypad × Bus := ops.foldl apply (released, start)

theorem run_concat (start : Bus) (ops : List Operation) (op : Operation) :
    run start (ops ++ [op]) = apply (run start ops) op := by
  rw [run, List.foldl_append]
  rfl

/-- Whether the lines are brought up to date. -/
def Operation.isUpdate : Operation → Bool
  | .update => true
  | _ => false

/-- Whether an operation presses a button or releases it, if it does either. -/
def Operation.sets (i : Nat) : Operation → Option Bool
  | .press buttons => if buttons.toNat.testBit i then some true else none
  | .release buttons => if buttons.toNat.testBit i then some false else none
  | _ => none

/-- The write of an operation, if it is one. -/
def Operation.written : Operation → Option (UInt16 × UInt8)
  | .write a v => some (a, v)
  | _ => none

/-- Whether a button is held, for which the last operation on it decides. -/
def down (ops : List Operation) (i : Nat) : Bool :=
  (ops.reverse.findSome? fun op => op.sets i).getD false

/-- The groups that the program has selected last, by a zero each. -/
def selected (ops : List Operation) : UInt8 :=
  History.held (ops.filterMap Operation.written) (· == 0xFF00) (· &&& 0x30) 0

/-- Whether a button on a line is held and its group selected. -/
def low (ops : List Operation) (i : Nat) : Bool :=
  down ops i && !(selected ops).toNat.testBit 4 ||
    down ops (i + 4) && !(selected ops).toNat.testBit 5

/-- The operations up to the last update. -/
def settled (ops : List Operation) : List Operation := ops.rdropWhile fun op => !op.isUpdate

theorem down_concat (ops : List Operation) (op : Operation) (i : Nat) :
    down (ops ++ [op]) i = (op.sets i).getD (down ops i) := by
  rw [down, List.reverse_append, List.reverse_singleton, List.singleton_append, List.findSome?_cons]
  cases op.sets i <;> rfl

theorem selected_concat (ops : List Operation) (op : Operation) : selected (ops ++ [op]) =
    match op with
    | .write a v => if a = 0xFF00 then v &&& 0x30 else selected ops
    | _ => selected ops := by
  rw [selected, List.filterMap_append]
  cases op with
  | write a v =>
    refine (History.held_concat ..).trans ?_
    simp only [beq_iff_eq]
    rfl
  | _ => exact congrArg (fun h => History.held h _ _ _) (List.append_nil _)

theorem settled_concat (ops : List Operation) (op : Operation) :
    settled (ops ++ [op]) = if op.isUpdate then ops ++ [op] else settled ops := by
  rw [settled, List.rdropWhile_concat]
  cases op.isUpdate <;> rfl

/-- A byte of the register's three parts. -/
structure Shows (b select lines : UInt8) : Prop where
  groups : select &&& 0x30 = select
  low : lines &&& 0x0F = lines
  whole : b = 0xC0 ||| select ||| lines

namespace Shows

variable {b select lines : UInt8}

theorem and_groups (shows : Shows b select lines) : b &&& 0x30 = select := by
  have high : (0xC0 : UInt8) &&& 0x30 = 0 := by decide
  have apart : (0x0F : UInt8) &&& 0x30 = 0 := by decide
  rw [shows.whole, or_and_distrib, or_and_distrib, high, UInt8.zero_or, shows.groups, ← shows.low,
    UInt8.and_assoc, apart, UInt8.and_zero, UInt8.or_zero]

theorem and_low (shows : Shows b select lines) : b &&& 0x0F = lines := by
  have high : (0xC0 : UInt8) &&& 0x0F = 0 := by decide
  have apart : (0x30 : UInt8) &&& 0x0F = 0 := by decide
  rw [shows.whole, or_and_distrib, or_and_distrib, high, UInt8.zero_or, shows.low, ← shows.groups,
    UInt8.and_assoc, apart, UInt8.and_zero, UInt8.zero_or]

/-- The lines without the selection. -/
theorem and_lines (shows : Shows b select lines) : b &&& 0xCF = 0xC0 ||| lines := by
  have high : (0xC0 : UInt8) &&& 0xCF = 0xC0 := by decide
  have apart : (0x30 : UInt8) &&& 0xCF = 0 := by decide
  have inside : (0x0F : UInt8) &&& 0xCF = 0x0F := by decide
  have still : lines &&& 0xCF = lines := by
    rw [← shows.low, UInt8.and_assoc, inside]
  rw [shows.whole, or_and_distrib, or_and_distrib, high, still, ← shows.groups, UInt8.and_assoc,
    apart, UInt8.and_zero, UInt8.or_zero]

/-- Another selection leaves the lines until the next update. -/
theorem reselect (shows : Shows b select lines) (v : UInt8) :
    Shows (b &&& 0xCF ||| v &&& 0x30) (v &&& 0x30) lines where
  groups := by rw [UInt8.and_assoc, UInt8.and_self]
  low := shows.low
  whole := by rw [shows.and_lines, UInt8.or_assoc, UInt8.or_assoc, UInt8.or_comm lines]

theorem testBit (shows : Shows b select lines) {i : Nat} (within : i < 4) :
    b.toNat.testBit i = lines.toNat.testBit i :=
  testBit_of_and (shows.and_low.trans shows.low.symm) (testBit_low within)

theorem lines_lt (shows : Shows b select lines) : lines.toNat < 2 ^ 4 := by
  rw [← shows.low, UInt8.toNat_and]
  exact Nat.lt_of_le_of_lt Nat.and_le_right (by decide)

end Shows

/-- What a joypad and its register hold after a history. -/
structure Follows (ops : List Operation) (p : Joypad × Bus) : Prop where
  held : ∀ i < 8, p.1.held.toNat.testBit i = down ops i
  shows : Shows (p.2.read 0xFF00) (selected ops) p.1.lines

variable {ops : List Operation} {p : Joypad × Bus}

/-- An update computes its lines from the selection that the writes have left. -/
theorem Follows.lines_update (follows : Follows ops p) :
    (p.1.update p.2).1.lines = p.1.linesFor (selected ops) := by
  rw [update_lines, follows.shows.and_groups]

theorem Follows.shows_update (follows : Follows ops p) :
    Shows ((p.1.update p.2).2.read 0xFF00) (selected ops) (p.1.linesFor (selected ops)) where
  groups := follows.shows.groups
  low := p.1.linesFor_low _
  whole := by rw [update_read, follows.shows.and_groups]

/-- Each operation keeps joypad and register in step with the history. -/
theorem Follows.apply (follows : Follows ops p) (op : Operation) :
    Follows (ops ++ [op]) (apply p op) := by
  obtain ⟨held, shows⟩ := id follows
  constructor
  · intro i within
    rw [down_concat, ← held i within]
    cases op with
    | press buttons =>
      rw [Operation.sets]
      change (p.1.held ||| buttons).toNat.testBit i = _
      rw [UInt8.toNat_or, Nat.testBit_or]
      cases buttons.toNat.testBit i <;> simp
    | release buttons =>
      rw [Operation.sets]
      change (p.1.held &&& ~~~buttons).toNat.testBit i = _
      rw [UInt8.toNat_and, Nat.testBit_and, testBit_compl _ within]
      cases buttons.toNat.testBit i <;> simp
    | update => rfl
    | write a v => rfl
  · rw [selected_concat]
    cases op with
    | press buttons => exact shows
    | release buttons => exact shows
    | update =>
      change Shows _ _ (p.1.update p.2).1.lines
      rw [follows.lines_update]
      exact follows.shows_update
    | write a v =>
      change Shows ((p.2.write a v).read 0xFF00) _ p.1.lines
      rw [Bus.read_p1_write]
      dsimp only
      split
      · exact shows.reselect v
      · exact shows

/-- From the start on the joypad follows its operations. -/
theorem run_follows (revision : Revision) (cartridge : Option Cartridge) (ops : List Operation) :
    Follows ops (run (.boot revision cartridge) ops) := by
  induction ops using List.reverseRecOn with
  | nil =>
    refine ⟨fun i _ => Nat.zero_testBit i, ?_⟩
    have power : (Bus.boot revision cartridge).read 0xFF00 = 0xCF := by
      rw [Bus.read_p1]
      change Registers.boot.stored .p1 ||| 0xC0 = 0xCF
      decide
    change Shows ((Bus.boot revision cartridge).read 0xFF00) 0 0x0F
    rw [power]
    exact ⟨by decide, by decide, by decide⟩
  | append_singleton ops op ih =>
    rw [run_concat]
    exact ih.apply op

/-- Only an update sets the lines. -/
theorem run_lines (start : Bus) (ops : List Operation) :
    (run start ops).1.lines = (run start (settled ops)).1.lines := by
  induction ops using List.reverseRecOn with
  | nil => rfl
  | append_singleton ops op ih =>
    rw [settled_concat]
    split
    · rfl
    · rename_i between
      rw [run_concat, ← ih]
      cases op with
      | update => exact absurd rfl between
      | _ => rfl

/-- A line of the joypad is low if a button of a selected group pulls it down. -/
theorem Follows.testBit_linesFor (follows : Follows ops p) {i : Nat} (within : i < 4) :
    (p.1.linesFor (selected ops)).toNat.testBit i = !low ops i := by
  rw [Joypad.testBit_linesFor _ _ within, follows.held i (by omega),
    follows.held (i + 4) (by omega), low]

/-- A line that was high falls if it is low now. -/
theorem Follows.falls_iff (follows : Follows ops p) : p.1.falls p.2 = true ↔
    ∃ i < 4, p.1.lines.toNat.testBit i = true ∧ low ops i = true := by
  rw [falls, follows.lines_update, and_compl_bne_zero]
  constructor
  · rintro ⟨i, -, high, fallen⟩
    have within : i < 4 := by
      by_contra beyond
      rw [Nat.testBit_lt_two_pow (Nat.lt_of_lt_of_le follows.shows.lines_lt
        (Nat.pow_le_pow_right (by decide) (Nat.le_of_not_lt beyond)))] at high
      cases high
    rw [follows.testBit_linesFor within, Bool.not_eq_false'] at fallen
    exact ⟨i, within, high, fallen⟩
  · rintro ⟨i, within, high, fallen⟩
    refine ⟨i, by omega, high, ?_⟩
    rw [follows.testBit_linesFor within, fallen, Bool.not_true]

/-- Writes at the end of a run reach the bus and not the joypad. -/
theorem run_writes (start : Bus) (ops : List Operation) (writes : List (UInt16 × UInt8)) :
    run start (ops ++ writes.map fun w => .write w.1 w.2) =
      ((run start ops).1, (run start ops).2.writeAll writes) := by
  induction writes using List.reverseRecOn with
  | nil => rw [List.map_nil, List.append_nil]; rfl
  | append_singleton writes w ih =>
    rw [List.map_append, ← List.append_assoc, List.map_singleton, run_concat, ih, Bus.writeAll,
      Bus.writeAll, List.foldl_append]
    rfl

/-- Over any history since power-on, an update shows the groups that the program has selected last
and the lines that the buttons held pull down, and it requests the interrupt exactly if a line is
low now that the update before has left high. What a program writes between two updates changes the
groups alone: the joypad keeps its buttons and lines, so that an edge is there or not as the last
selection has it. -/
theorem lines_exact (revision : Revision) (cartridge : Option Cartridge) (ops : List Operation) :
    let start := Bus.boot revision cartridge
    let p := run start ops
    let before := run start (settled ops)
    let after := p.1.update p.2
    (∃ lines : UInt8, after.2.read 0xFF00 = 0xC0 ||| selected ops ||| lines ∧ lines.toNat < 16 ∧
      ∀ i < 4, lines.toNat.testBit i = !low ops i) ∧
    after.2.requested = p.2.requested.union (Interrupts.joypad.when (p.1.falls p.2)) ∧
    (p.1.falls p.2 = true ↔ ∃ i < 4, (before.2.read 0xFF00).toNat.testBit i = true ∧
      (after.2.read 0xFF00).toNat.testBit i = false) ∧
    ∀ writes : List (UInt16 × UInt8),
      let changed := ops ++ writes.map fun w => .write w.1 w.2
      let r := run start changed
      r.1 = p.1 ∧ r.2.read 0xFF00 = p.2.read 0xFF00 &&& 0xCF ||| selected changed ∧
      (selected changed = selected ops → r.1.falls r.2 = p.1.falls p.2) := by
  intro start p before after
  have follows : Follows ops p := run_follows revision cartridge ops
  have earlier : Follows (settled ops) before := run_follows revision cartridge (settled ops)
  have shown : Shows (after.2.read 0xFF00) (selected ops) _ := follows.shows_update
  refine ⟨⟨_, shown.whole, ?_, fun i within => follows.testBit_linesFor within⟩,
    update_requested _ _, ?_, fun writes => ?_⟩
  · exact shown.lines_lt
  · rw [follows.falls_iff]
    refine exists_congr fun i => and_congr_right fun within => ?_
    rw [earlier.shows.testBit within, shown.testBit within, follows.testBit_linesFor within,
      Bool.not_eq_false', ← run_lines]
  · intro changed r
    have written : r = (p.1, p.2.writeAll writes) := run_writes start ops writes
    have later : Follows changed r := run_follows revision cartridge changed
    have same : r.1 = p.1 := by rw [written]
    refine ⟨same, ?_, fun kept => ?_⟩
    · rw [later.shows.whole, same, follows.shows.and_lines, UInt8.or_assoc, UInt8.or_assoc,
        UInt8.or_comm p.1.lines]
    · rw [falls, falls, follows.lines_update, later.lines_update, same, kept]

/-- An action's line falls, whatever the program selects in the meantime. -/
theorem lines_exact_pressed :
    let ops : List Operation := [.write 0xFF00 0x10, .update, .press 0x10]
    let writes : List (UInt16 × UInt8) := [(0xFF00, 0x20), (0xFF00, 0x1F)]
    let p := run (.boot .standard none) ops
    let r := run (.boot .standard none) (ops ++ writes.map fun w => .write w.1 w.2)
    (p.1.update p.2).2.read 0xFF00 = 0xDE ∧ (p.1.update p.2).2.requested.has 4 = true ∧
      r.1.falls r.2 = true := by
  intro ops writes p r
  obtain ⟨-, requested, edge, between⟩ := lines_exact .standard none ops
  have shown : (p.1.update p.2).2.read 0xFF00 = 0xDE := by decide +kernel
  have fallen : p.1.falls p.2 = true := by
    refine edge.mpr ⟨0, by decide, by decide +kernel, ?_⟩
    rw [shown]
    decide
  refine ⟨shown, ?_, ((between writes).2.2 (by decide)).trans fallen⟩
  rw [requested, fallen]
  decide +kernel

end Joypad

end DotMatrix
