import DotMatrix.Bus.Basic
import DotMatrix.Proofs.Interrupts
import Mathlib.Logic.Relation

namespace DotMatrix.Bus

/-- The program's writes, the first one first. -/
def writeAll (s : Bus) (writes : List (UInt16 × UInt8)) : Bus :=
  writes.foldl (fun s w => s.write w.1 w.2) s

@[simp] theorem writeAll_nil (s : Bus) : s.writeAll [] = s := rfl

@[simp] theorem writeAll_cons (s : Bus) (w : UInt16 × UInt8) (rest : List (UInt16 × UInt8)) :
    s.writeAll (w :: rest) = (s.write w.1 w.2).writeAll rest := rfl

theorem requested_ite (s : Bus) (i : Interrupts) (b : Bool) :
    (if b then s.request i else s).requested = s.requested.union (i.when b) := by
  cases b with
  | true => rfl
  | false => exact (Interrupts.union_empty _).symm

/-- What the parts of a machine do to the bus between them. -/
inductive Access : Bus → Bus → Prop
  | write {s : Bus} (w : Writer) (a : UInt16) (v : UInt8) : Access s (s.writeBy w a v)
  | store {s : Bus} (r : Register) (v : UInt8) : Access s (s.store r v)
  | request {s : Bus} {i : Interrupts} :
      i ∈ [Interrupts.vblank, .stat, .timer, .serial, .joypad] → Access s (s.request i)
  | dismiss {s : Bus} (i : Interrupts) : Access s { s with requested := s.requested.diff i }
  | time {s : Bus} (n : Nat) : Access s (s.stepTimer n)

/-- Any number of accesses, one after another. -/
abbrev Leads : Bus → Bus → Prop := Relation.ReflTransGen Access

theorem leads_request_ite (s : Bus) {i : Interrupts}
    (known : i ∈ [Interrupts.vblank, .stat, .timer, .serial, .joypad]) (b : Bool) :
    s.Leads (if b then s.request i else s) := by
  cases b with
  | true => exact .single (.request known)
  | false => exact .refl

theorem leads_writeAll (s : Bus) (writes : List (UInt16 × UInt8)) : s.Leads (s.writeAll writes) := by
  induction writes generalizing s with
  | nil => exact .refl
  | cons w rest ih => exact .head (.write .program w.1 w.2) (ih _)

/-- What every access keeps is kept by any number of them. -/
theorem Leads.keeps {P : Bus → Prop} {s t : Bus} (leads : s.Leads t)
    (access : ∀ {s t : Bus}, Access s t → P s → P t) (start : P s) : P t := by
  induction leads with
  | refl => exact start
  | tail _ next ih => exact access next ih

end DotMatrix.Bus
