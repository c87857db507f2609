import DotMatrix.Proofs.Cartridge.Memory

namespace DotMatrix

namespace History

def latchWindow : UInt16 → Bool := between 0x6000 0x8000

/-- Whether a write latches the clock: it is a one to the latch, and the last one to the latch
before it was a zero. -/
def latching (past : History UInt16) (w : UInt16 × UInt8) : Bool :=
  latchWindow w.1 && w.2 == 1 && past.last? latchWindow == some 0

def latches (h : History UInt16) (k : Nat) : Bool := h[k]?.any (latching (h.take k))

/-- Write number `k` is the last one that latches the clock. -/
def LastLatch (h : History UInt16) (k : Nat) : Prop :=
  h.latches k = true ∧ ∀ j, h.latches j = true → j ≤ k

/-- The bytes that the writes have left in clock registers, each in the one selected then. -/
def clockWritten (h : History UInt16) : History Nat :=
  h.landed fun past w =>
    if between 0xA000 0xC000 w.1 && past.clockShown .mbc3 then some (past.sideField 16, w.2)
    else none

/-- What is in the clock register that a number selects, zero at first. -/
def clockByte (h : History UInt16) (select : Nat) : UInt8 :=
  (h.clockWritten.last? (· == select)).getD 0

variable {h : History UInt16} {w : UInt16 × UInt8} {k : Nat}

/-- A write in the window sets the register that is selected while it is shown. -/
theorem clockByte_concat (h : History UInt16) (a : UInt16) (v : UInt8) (select : Nat) :
    clockByte (h ++ [(a, v)]) select =
      if between 0xA000 0xC000 a = true ∧ h.clockShown .mbc3 = true ∧ h.sideField 16 = select then v
      else h.clockByte select := by
  rw [clockByte, clockWritten, landed_concat]
  by_cases reached : between 0xA000 0xC000 a = true ∧ h.clockShown .mbc3 = true
  · simp only [reached, Bool.and_self, if_true, Option.toList_some, last?_concat, beq_iff_eq,
      true_and]
    split <;> rfl
  · rw [if_neg (by rwa [Bool.and_eq_true]), if_neg fun all => reached ⟨all.1, all.2.1⟩,
      Option.toList_none, List.append_nil]
    rfl

theorem latches_lt (latched : h.latches k = true) : k < h.length := by
  by_contra beyond
  rw [latches, List.getElem?_eq_none (Nat.le_of_not_lt beyond)] at latched
  cases latched

theorem latches_concat_of_lt (before : k < h.length) : latches (h ++ [w]) k = h.latches k := by
  rw [latches, List.getElem?_append_left before, List.take_append_of_le_length before.le, latches]

/-- The last write latches if the writes before have armed it. -/
theorem latches_concat_length : latches (h ++ [w]) h.length = h.latching w := by
  rw [latches, List.getElem?_concat_length, List.take_left, Option.any_some]

theorem latches_concat (earlier : h.latches k = true) : latches (h ++ [w]) k = true := by
  rwa [latches_concat_of_lt (latches_lt earlier)]

/-- A latch is the last one if it is made by the last write, or else if it was before. -/
theorem lastLatch_concat (last : LastLatch (h ++ [w]) k) :
    h.latching w = true ∧ k = h.length ∨ h.latching w = false ∧ k < h.length ∧ h.LastLatch k := by
  obtain ⟨latched, greatest⟩ := last
  have within := latches_lt latched
  rw [List.length_append, List.length_singleton, Nat.lt_succ_iff] at within
  cases now : h.latching w with
  | true => exact Or.inl ⟨rfl, within.antisymm (greatest _ (latches_concat_length.trans now))⟩
  | false =>
    have before : k < h.length := by
      refine Nat.lt_of_le_of_ne within fun same => ?_
      rw [same, latches_concat_length, now] at latched
      cases latched
    rw [latches_concat_of_lt before] at latched
    exact Or.inr ⟨rfl, before, latched, fun j earlier => greatest j (latches_concat earlier)⟩

end History

open History

/-- The clock and what is shown of it are as the writes have left them. -/
structure Mbc3.TracksClock (h : History UInt16) (m : Mbc3) : Prop where
  armed : m.armed = (h.last? latchWindow == some 0)
  clock : ∀ r : Fin 5, m.clock.get r = h.clockByte (8 + r)
  latched : ∀ k, h.LastLatch k → ∀ r : Fin 5, m.latched.get r = clockByte (h.take k) (8 + r)
  unlatched : (∀ k, h.latches k = false) → ∀ r : Fin 5, m.latched.get r = 0

variable {h : History UInt16} {a : UInt16} {v : UInt8} {m n : Mbc3}

theorem Mbc3.tracksClock_initial : Mbc3.initial.TracksClock [] where
  armed := rfl
  clock := by decide
  latched := fun _ last => nomatch last.1
  unlatched := fun _ => by decide

/-- What is shown changes only at a latch, and then to the clock as it was. -/
theorem Mbc3.TracksClock.concat (tracks : m.TracksClock h)
    (armed : n.armed = if latchWindow a then v == 0 else m.armed)
    (clock : ∀ r : Fin 5, n.clock.get r = clockByte (h ++ [(a, v)]) (8 + r))
    (latched : n.latched = if h.latching (a, v) then m.clock else m.latched) :
    n.TracksClock (h ++ [(a, v)]) where
  armed := by
    rw [armed, last?_concat, tracks.armed]
    split
    · rfl
    · rfl
  clock := clock
  latched := by
    intro k last r
    rw [latched]
    rcases lastLatch_concat last with ⟨now, rfl⟩ | ⟨other, before, last⟩
    · rw [if_pos now, List.take_left, tracks.clock]
    · rw [if_neg (Bool.eq_false_iff.mp other), List.take_append_of_le_length before.le,
        tracks.latched k last]
  unlatched := by
    intro never r
    have other : h.latching (a, v) = false := latches_concat_length.symm.trans (never _)
    rw [latched, if_neg (Bool.eq_false_iff.mp other)]
    refine tracks.unlatched (fun k => ?_) r
    by_contra earlier
    exact absurd (latches_concat (Bool.of_not_eq_false earlier)) (Bool.eq_false_iff.mp (never k))

theorem clockByte_of_outside
    (outside : ¬(between 0xA000 0xC000 a = true ∧ h.clockShown .mbc3 = true)) (select : Nat) :
    clockByte (h ++ [(a, v)]) select = h.clockByte select := by
  rw [clockByte_concat, if_neg fun all => outside ⟨all.1, all.2.1⟩]

theorem not_latching (elsewhere : latchWindow a = false) : h.latching (a, v) = false := by
  rw [latching, elsewhere, Bool.false_and, Bool.false_and]

/-- A write to a control address latches the clock or leaves it alone. -/
theorem Mbc3.TracksClock.write (tracks : m.TracksClock h) (control : a.toNat < 0x8000) :
    (m.write a v).TracksClock (h ++ [(a, v)]) := by
  have outside : ¬(between 0xA000 0xC000 a = true ∧ h.clockShown .mbc3 = true) := by
    simp only [between, Bool.and_eq_true, decide_eq_true_eq]
    omega
  by_cases latch : 0x6000 ≤ a.toNat
  · have window : latchWindow a = true := by simp [latchWindow, between, latch, control]
    have written : m.write a v = { m with
        latched := if m.armed && v == 1 then m.clock else m.latched, armed := v == 0 } := by
      unfold Mbc3.write
      simp only [UInt16.lt_iff_toNat_lt, UInt16.reduceToNat]
      rw [if_neg (by omega), if_neg (by omega), if_neg (by omega)]
    rw [written]
    refine tracks.concat ?_ (fun r => ?_) ?_
    · rw [if_pos window]
    · rw [clockByte_of_outside outside]
      exact tracks.clock r
    · rw [latching, window, Bool.true_and, ← tracks.armed, Bool.and_comm]
  · have elsewhere : latchWindow a = false := by simp [latchWindow, between, latch]
    have same : (m.write a v).armed = m.armed ∧ (m.write a v).clock = m.clock ∧
        (m.write a v).latched = m.latched := by
      have below : a < 0x6000 := UInt16.lt_iff_toNat_lt.mpr (Nat.lt_of_not_le latch)
      unfold Mbc3.write
      split_ifs <;> exact ⟨rfl, rfl, rfl⟩
    obtain ⟨armed, clock, latched⟩ := same
    refine tracks.concat ?_ (fun r => ?_) ?_
    · rw [elsewhere, armed]
      rfl
    · rw [clock, clockByte_of_outside outside]
      exact tracks.clock r
    · rw [not_latching elsewhere, latched]
      rfl

/-- A write to an address above the ROM that reaches no clock register. -/
theorem Mbc3.TracksClock.beyond (tracks : m.TracksClock h) (above : 0x8000 ≤ a.toNat)
    (outside : ¬(between 0xA000 0xC000 a = true ∧ h.clockShown .mbc3 = true)) :
    m.TracksClock (h ++ [(a, v)]) := by
  have elsewhere : latchWindow a = false := by
    simp [latchWindow, between, Nat.not_lt.mpr above]
  refine tracks.concat ?_ (fun r => ?_) ?_
  · rw [elsewhere]
    rfl
  · rw [clockByte_of_outside outside]
    exact tracks.clock r
  · rw [not_latching elsewhere]
    rfl

/-- A write in the window changes the clock, and what is shown of it only at the next latch. -/
theorem Mbc3.TracksClock.writeClock (tracks : m.TracksClock h) {r : Fin 5}
    (window : between 0xA000 0xC000 a = true) (shown : h.clockShown .mbc3 = true)
    (select : h.sideField 16 = 8 + r) :
    { m with clock := m.clock.set r v : Mbc3 }.TracksClock (h ++ [(a, v)]) := by
  have elsewhere : latchWindow a = false := by
    simp only [between, latchWindow, Bool.and_eq_true, Bool.and_eq_false_iff, decide_eq_true_eq,
      decide_eq_false_iff_not] at window ⊢
    omega
  refine tracks.concat ?_ (fun q => ?_) ?_
  · rw [elsewhere]
    rfl
  · rw [clockByte_concat, select]
    by_cases same : r = q
    · subst same
      rw [if_pos ⟨window, shown, rfl⟩]
      exact Vector.getElem_set_self r.isLt
    · have other : ¬8 + r.val = 8 + q.val := fun equal => same (Fin.ext (Nat.add_left_cancel equal))
      rw [if_neg fun all => other all.2.2, ← tracks.clock q]
      exact Vector.getElem_set_ne r.isLt q.isLt fun equal => same (Fin.ext equal)
  · rw [not_latching elsewhere]
    rfl

/-- The window shows a clock register exactly if the writes have selected it. -/
theorem Mbc3.Tracks.ramWindow_clock (tracks : m.Tracks h) (r : Fin 5) :
    m.ramWindow = .clock r ↔ h.clockShown .mbc3 = true ∧ h.sideField 16 = 8 + r := by
  have small : m.select ≤ 0x03 ↔ m.select.toNat ≤ 3 := UInt8.le_iff_toNat_le
  have few := r.isLt
  simp only [Mbc3.ramWindow, clockShown, ← tracks.gate, ← tracks.select, small]
  cases m.ramOpen with
  | false => simp
  | true =>
    by_cases isBank : m.select.toNat ≤ 3
    · simp [isBank]
      omega
    by_cases isClock : 8 ≤ m.select.toNat ∧ m.select.toNat < 13
    · simp [isBank, isClock, Fin.ext_iff]
      omega
    · simp [isBank, isClock]

theorem Mbc3.Tracks.exists_ramWindow (tracks : m.Tracks h) (shown : h.clockShown .mbc3 = true) :
    ∃ r : Fin 5, h.sideField 16 = 8 + r ∧ m.ramWindow = .clock r := by
  have range := shown
  simp only [clockShown, Bool.and_eq_true, decide_eq_true_eq] at range
  have select : h.sideField 16 = 8 + (h.sideField 16 - 8) := by omega
  exact ⟨⟨h.sideField 16 - 8, by omega⟩, select, (tracks.ramWindow_clock _).mpr ⟨shown, select⟩⟩

namespace Cartridge

variable {c : Cartridge}

/-- One write keeps track of the clock, whichever part it goes to. -/
theorem tracksClock_write (isMbc3 : c.controller = .mbc3 m) (tracks : m.Tracks h)
    (clock : m.TracksClock h) (a : UInt16) (v : UInt8) :
    ∃ n, (c.write a v).controller = .mbc3 n ∧ n.TracksClock (h ++ [(a, v)]) := by
  unfold write
  split
  · rename_i control
    rw [isMbc3]
    exact ⟨m.write a v, rfl, clock.write (UInt16.lt_iff_toNat_lt.mp control)⟩
  rename_i rom
  have above : 0x8000 ≤ a.toNat := UInt16.le_iff_toNat_le.mp (UInt16.not_lt.mp rom)
  split
  · rename_i window
    -- A window that shows anything else has no clock register selected.
    have unshown (other : ∀ r, c.controller.ramWindow ≠ .clock r) :
        ¬(between 0xA000 0xC000 a = true ∧ h.clockShown .mbc3 = true) := by
      rintro ⟨-, shown⟩
      obtain ⟨r, -, content⟩ := tracks.exists_ramWindow shown
      exact other r (by rw [isMbc3]; exact content)
    split
    · rename_i content
      exact ⟨m, isMbc3, clock.beyond above (unshown (by simp [content]))⟩
    · rename_i content
      exact ⟨m, isMbc3, clock.beyond above (unshown (by simp [content]))⟩
    · rename_i content
      exact ⟨m, isMbc3, clock.beyond above (unshown (by simp [content]))⟩
    · rename_i r content
      rw [isMbc3] at content ⊢
      obtain ⟨shown, select⟩ := (tracks.ramWindow_clock r).mp content
      exact ⟨_, rfl, clock.writeClock (between_iff.mpr window) shown select⟩
  · rename_i outside
    exact ⟨m, isMbc3, clock.beyond above fun both => outside (between_iff.mp both.1)⟩

/-- From the start on the clock is what the writes have made of it. -/
theorem tracksClock_writeAll (fresh : c.controller = .initial .mbc3) (h : History UInt16) :
    ∃ m, (c.writeAll h).controller = .mbc3 m ∧ m.Tracks h ∧ m.TracksClock h := by
  have kind : c.controller = .initial c.controller.kind := by rw [fresh]; rfl
  induction h using List.reverseRecOn with
  | nil => exact ⟨.initial, fresh, Controller.tracks_initial .mbc3, Mbc3.tracksClock_initial⟩
  | append_singleton h w ih =>
    obtain ⟨m, isMbc3, tracks, clock⟩ := ih
    obtain ⟨n, written, clock⟩ := tracksClock_write isMbc3 tracks clock w.1 w.2
    have tracks := tracks_writeAll kind (h ++ [w])
    rw [writeAll_concat] at tracks ⊢
    rw [written] at tracks
    exact ⟨n, written, tracks, clock⟩

/-- The clock of a cartridge that has one, after any writes. With a register of it selected and
open, an address from 0xA000 to 0xBFFF shows what was in that register at the last latch, or zero if
there has been none. A write there changes the clock or RAM, never both. -/
theorem read_clock_writeAll (fresh : c.controller = .initial .mbc3) (h : History UInt16) :
    let d := c.writeAll h
    ∀ a, 0xA000 ≤ a ∧ a < 0xC000 →
      (∀ r : Fin 5, h.opened .mbc3 = true → h.sideField 16 = 8 + r →
        (∀ k, h.LastLatch k → d.read a = clockByte (h.take k) (8 + r)) ∧
        ((∀ k, h.latches k = false) → d.read a = 0)) ∧
      ∀ v, (h.clockShown .mbc3 = true → (d.write a v).ram = d.ram) ∧
        (h.clockShown .mbc3 = false → (d.write a v).controller = d.controller) := by
  intro d a window
  obtain ⟨m, isMbc3, tracks, clock⟩ := tracksClock_writeAll fresh h
  have above : ¬a < 0x8000 := UInt16.not_lt.mpr (UInt16.le_trans (by decide) window.1)
  refine ⟨fun r opened select => ?_, fun v => ⟨fun shown => ?_, fun unshown => ?_⟩⟩
  · have shown : h.clockShown .mbc3 = true := by
      have few := r.isLt
      simp only [clockShown, opened, select, Bool.and_eq_true, decide_eq_true_eq, and_true,
        true_and]
      omega
    have content : d.controller.ramWindow = .clock r := by
      rw [isMbc3]
      exact (tracks.ramWindow_clock r).mpr ⟨shown, select⟩
    have read : d.read a = m.latched.get r := by
      rw [Cartridge.read, if_neg above, if_pos window, content, isMbc3]
      rfl
    rw [read]
    exact ⟨fun k last => clock.latched k last r, fun never => clock.unlatched never r⟩
  · obtain ⟨r, -, content⟩ := tracks.exists_ramWindow shown
    have content : d.controller.ramWindow = .clock r := by rw [isMbc3]; exact content
    rw [write, if_neg above, if_pos window, content]
  · rw [write, if_neg above, if_pos window]
    split
    · rfl
    · rfl
    · rfl
    · rename_i r content
      rw [isMbc3] at content
      rw [((tracks.ramWindow_clock r).mp content).1] at unshown
      cases unshown

/-- Two banks of ROM, a clock and one bank of RAM. -/
def clockImage : Array UInt8 := Array.ofFn fun i : Fin 0x8000 =>
  if i.val = 0x147 then 0x10 else if i.val = 0x149 then 0x02 else 0

/-- The latch is made with the RAM closed. What is written to the register afterwards does not show,
for a one that follows a one does not latch. -/
def latchedWrites : History UInt16 :=
  [(0x0000, 0x0A), (0x4000, 0x0C), (0xA000, 0x11), (0x6000, 0x00), (0x0000, 0x00), (0x4000, 0x01),
   (0x7FFF, 0x01), (0x4000, 0x0C), (0x0000, 0x0A), (0xBFFF, 0x22), (0x6000, 0x01)]

theorem read_clock_latched : ∃ c, ofImage clockImage = .ok c ∧
    (c.writeAll latchedWrites).read 0xA123 = 0x11 := by
  have size : clockImage.size = 0x8000 := Array.size_ofFn
  obtain ⟨title, header⟩ := header_ofFn
    (fun n => if n = 0x147 then 0x10 else if n = 0x149 then 0x02 else 0)
    (show 0x150 ≤ 0x8000 by decide)
  obtain ⟨c, accepted, fresh, _⟩ := exists_ofImage header rfl rfl rfl (Nat.le_of_eq size.symm)
  have last : latchedWrites.LastLatch 6 := by
    refine ⟨by decide, fun j latched => ?_⟩
    by_contra later
    have never : ∀ j < 11, 6 < j → latchedWrites.latches j = false := by decide
    rw [never j (latches_lt latched) (Nat.lt_of_not_le later)] at latched
    cases latched
  obtain ⟨shown, -⟩ := read_clock_writeAll fresh latchedWrites 0xA123 (by decide)
  have byte := (shown 4 (by decide) (by decide)).1 6 last
  exact ⟨c, accepted, byte.trans (by decide)⟩

end Cartridge

end DotMatrix
