import DotMatrix.Proofs.Bus.Access
import DotMatrix.Proofs.Cpu.Steps

namespace DotMatrix

/-- What goes out on the bus when an operand takes a byte. -/
def Operand.writes (r : Operand) (hl : UInt16) (v : UInt8) : List (UInt16 × UInt8) :=
  match r with
  | memory => [(hl, v)]
  | _ => []

namespace Core

/-- The two writes of a push, the upper byte first. -/
def pushed (s : Core) (w : UInt16) : List (UInt16 × UInt8) :=
  [(s.cpu.sp - 1, high w), (s.cpu.sp - 2, low w)]

theorem withOperand_bus (s : Core) (r : Operand) (v : UInt8) :
    (s.withOperand r v).bus = s.bus.writeAll (r.writes s.cpu.hl v) := by
  cases r <;> rfl

theorem withComputed_bus (s : Core) (r : Operand) (c : Computed) :
    (s.withComputed r c).bus = s.bus.writeAll (r.writes s.cpu.hl c.value) :=
  withOperand_bus _ r c.value

end Core

/-- The program's writes of a prefixed instruction. A test writes nothing back. -/
def BitInstruction.writes (i : BitInstruction) (s : Core) : List (UInt16 × UInt8) :=
  match i with
  | shift op r => r.writes s.cpu.hl (op.apply (s.operand r) s.cpu.f).value
  | test _ _ => []
  | clear bit r => r.writes s.cpu.hl (s.operand r &&& ~~~(1 <<< UInt8.ofNat bit))
  | raise bit r => r.writes s.cpu.hl (s.operand r ||| 1 <<< UInt8.ofNat bit)

/-- A prefixed instruction reaches the bus through its writes alone. -/
theorem BitInstruction.run_bus (i : BitInstruction) (s : Core) :
    (i.run s).bus = s.bus.writeAll (i.writes s) := by
  cases i with
  | shift op r => exact Core.withComputed_bus _ _ _
  | test bit r => rfl
  | clear bit r => exact Core.withOperand_bus _ _ _
  | raise bit r => exact Core.withOperand_bus _ _ _

/-- The program's writes of an instruction whose opcode has been fetched. -/
def Instruction.writes (i : Instruction) (s : Core) : List (UInt16 × UInt8) :=
  match i with
  | stop => [(0xFF04, 0)]
  | load dst src => dst.writes s.cpu.hl (s.operand src)
  | loadByte dst => dst.writes s.cpu.hl s.immediate
  | storeTo p => [(s.cpu.pointer p, s.cpu.a)]
  | storeHigh => [(highPage s.immediate, s.cpu.a)]
  | storeHighC => [(highPage s.cpu.c, s.cpu.a)]
  | storeDirect => [(s.immediateWord, s.cpu.a)]
  | storeSP => [(s.immediateWord, low s.cpu.sp), (s.immediateWord + 1, high s.cpu.sp)]
  | increment r => r.writes s.cpu.hl (Computed.increment (s.operand r) s.cpu.f).value
  | decrement r => r.writes s.cpu.hl (Computed.decrement (s.operand r) s.cpu.f).value
  | push p => s.pushed (s.cpu.stackPair p)
  | call when => if Condition.allows s.cpu.f when then s.pushed (s.cpu.pc + 2) else []
  | restart _ => s.pushed s.cpu.pc
  | prefixed => (BitInstruction.decode s.immediate).writes (s.skip 1)
  | _ => []

/-- An instruction reaches the bus through its writes alone. -/
theorem Instruction.run_bus (i : Instruction) (s : Core) :
    (i.run s).bus = s.bus.writeAll (i.writes s) := by
  cases i with
  | halt | enableInterrupts | jumpRelative | jump | ret => unfold run writes; dsimp only; split <;> rfl
  | call when =>
    unfold run writes
    dsimp only
    by_cases taken : Condition.allows s.cpu.f when = true
    · rw [if_pos (show Condition.allows (s.skip 2).cpu.f when = true from taken), if_pos taken]
      rfl
    · rw [if_neg (show ¬Condition.allows (s.skip 2).cpu.f when = true from taken), if_neg taken]
      rfl
  | load | loadByte => exact Core.withOperand_bus _ _ _
  | increment | decrement => exact Core.withComputed_bus _ _ _
  | prefixed => exact BitInstruction.run_bus _ _
  | _ => rfl

namespace Core

/-- The writes of the instruction in a slot, if there is one. -/
def slotWrites (s : Core) : List (UInt16 × UInt8) :=
  if s.cpu.stopped || s.cpu.halted then []
  else match Instruction.decode s.immediate with
    | none => []
    | some i => i.writes s.fetched

/-- A slot reaches the bus through its writes alone. -/
theorem Slotted.bus_eq {s : Core} {r : Except Fault Nat × Core} (slot : Slotted s r) :
    r.2.bus = s.bus.writeAll s.slotWrites := by
  cases slot with
  | stop stopped => simp only [slotWrites, stopped, Bool.true_or, if_true, Bus.writeAll_nil]
  | halt _ halted => simp only [slotWrites, halted, Bool.or_true, if_true, Bus.writeAll_nil]
  | meaningless going running meaning =>
    simp only [slotWrites, going, running, meaning, Bool.or_self, Bool.false_eq_true, if_false]
    exact s.fetched_bus
  | @instruction i going running meaning =>
    simp only [slotWrites, going, running, meaning, Bool.or_self, Bool.false_eq_true, if_false]
    rw [settle_bus, Instruction.run_bus, fetched_bus]

/-- Every write that a step puts on the bus: those of its instruction, and the return address if an
interrupt is served. -/
def writes (s : Core) : List (UInt16 × UInt8) :=
  match s.cpu.fault with
  | some _ => []
  | none => s.slotWrites ++ (if s.dispatched?.isSome then s.slot.2.pushed s.slot.2.cpu.pc else [])

/-- A step reaches the bus through its writes and by taking back the request that it serves. -/
theorem step_bus (s : Core) (unlocked : s.cpu.fault = none) :
    s.step.2.bus = match s.dispatched? with
      | none => s.bus.writeAll s.writes
      | some i =>
        let t := s.bus.writeAll s.slotWrites
        { t with requested := t.requested.diff i }.writeAll (s.slot.2.pushed s.slot.2.cpu.pc) := by
  have slot := s.slotted
  have step := s.stepped
  generalize s.step = result at step ⊢
  cases step with
  | locked locked => exact absurd (locked.symm.trans unlocked) (by simp)
  | failed _ outcome =>
    have quiet : s.dispatched? = none := by simp only [dispatched?, unlocked, outcome]
    rw [outcome] at slot
    simp only [writes, unlocked, quiet, Option.isSome_none, Bool.false_eq_true, if_false,
      List.append_nil]
    exact slot.bus_eq
  | plain _ outcome quiet =>
    rw [outcome] at slot
    simp only [writes, unlocked, quiet, Option.isSome_none, Bool.false_eq_true, if_false,
      List.append_nil]
    exact slot.bus_eq
  | served _ outcome choice =>
    rw [outcome] at slot
    simp only [choice, ← slot.bus_eq, outcome]
    rfl

/-- A step of the processor is some accesses to the bus. -/
theorem step_leads (s : Core) : s.bus.Leads s.step.2.bus := by
  cases locked : s.cpu.fault with
  | some e =>
    simp only [step, locked]
    exact .refl
  | none =>
    rw [step_bus s locked]
    split
    · exact Bus.leads_writeAll _ _
    · rename_i i _
      have dismissed := Relation.ReflTransGen.tail (Bus.leads_writeAll s.bus s.slotWrites) (.dismiss i)
      exact dismissed.trans (Bus.leads_writeAll _ _)

end Core

end DotMatrix
