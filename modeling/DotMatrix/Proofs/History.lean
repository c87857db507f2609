import Mathlib.Data.List.Basic
import Mathlib.Data.List.Induction

namespace DotMatrix

/-- Bytes written to places, the first one first. -/
abbrev History (α : Type) := List (α × UInt8)

namespace History

variable {α β : Type}

/-- The byte that was written last to a place of a window. -/
def last? (h : History α) (window : α → Bool) : Option UInt8 :=
  (h.findRev? fun w => window w.1).map Prod.snd

/-- What a register holds that only writes to a window change. -/
def held (h : History α) (window : α → Bool) (meaning : UInt8 → β) (start : β) : β :=
  ((h.last? window).map meaning).getD start

@[simp] theorem last?_concat (h : History α) (place : α) (v : UInt8) (window : α → Bool) :
    last? (h ++ [(place, v)]) window = if window place then some v else h.last? window := by
  rw [last?, List.findRev?_eq_find?_reverse, List.reverse_append, List.reverse_singleton,
    List.singleton_append, List.find?_cons]
  cases window place with
  | true => rfl
  | false => rw [← List.findRev?_eq_find?_reverse]; rfl

@[simp] theorem held_concat (h : History α) (place : α) (v : UInt8) (window : α → Bool)
    (meaning : UInt8 → β) (start : β) :
    held (h ++ [(place, v)]) window meaning start =
      if window place then meaning v else h.held window meaning start := by
  rw [held, last?_concat]
  split <;> rfl

/-- Everything that the writes bring about, each of them after those before it. -/
def traced {γ : Type} (effect : History α → α × UInt8 → List γ) (h : History α) : List γ :=
  h.zipIdx.flatMap fun w => effect (h.take w.2) w.1

theorem traced_concat {γ : Type} (effect : History α → α × UInt8 → List γ) (h : History α)
    (w : α × UInt8) : traced effect (h ++ [w]) = h.traced effect ++ effect h w := by
  rw [traced, List.zipIdx_append, List.flatMap_append]
  congr 1
  · -- What came before a write is not changed by one that comes later.
    refine List.flatMap_congr fun w member => ?_
    obtain ⟨_, before, _⟩ := List.mem_zipIdx member
    rw [List.take_append_of_le_length (by omega)]
  · simp only [List.zipIdx_singleton, List.flatMap_cons, List.flatMap_nil, List.append_nil,
      Nat.zero_add, List.take_left]

/-- What the writes bring about, each of them after those before it: a byte somewhere or nothing. -/
def landed (effect : History α → α × UInt8 → Option (β × UInt8)) (h : History α) : History β :=
  h.zipIdx.filterMap fun w => effect (h.take w.2) w.1

theorem landed_concat (effect : History α → α × UInt8 → Option (β × UInt8)) (h : History α)
    (w : α × UInt8) : landed effect (h ++ [w]) = h.landed effect ++ (effect h w).toList := by
  have landed_eq (h : History α) : landed effect h = h.traced fun h w => (effect h w).toList :=
    List.filterMap_eq_flatMap_toList _ _
  rw [landed_eq, landed_eq, traced_concat]

end History

end DotMatrix
