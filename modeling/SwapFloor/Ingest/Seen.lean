import SwapFloor.Table

/-!
# Signatures seen before

A signature that was accepted less than the retention ago is a repetition and is not accepted
again. Times are milliseconds on a clock of its own; a time before an earlier one counts as no
time having passed. Main statement: what a mark answers and what it remembers (`get?_mark`).
-/

namespace SwapFloor

/-- When each signature was last accepted. -/
structure Seen where
  retentionMs : Nat
  acceptedAt : Table String Nat

namespace Seen

/-- Nothing seen. -/
def new (retentionMs : Nat) : Seen := ⟨retentionMs, .empty⟩

/-- Was accepted less than the retention ago. -/
def isSeen (s : Seen) (signature : String) (now : Nat) : Bool :=
  match s.acceptedAt.get? signature with
  | some at_ => now - at_ < s.retentionMs
  | none => false

/-- Accepts a signature that is no repetition, and tells whether it did. -/
def mark (s : Seen) (signature : String) (now : Nat) : Seen × Bool :=
  if s.isSeen signature now then (s, false)
  else ({ s with acceptedAt := s.acceptedAt.insert signature now }, true)

/-- Forgets what was accepted no less than the retention ago. -/
def evict (s : Seen) (now : Nat) : Seen :=
  { s with acceptedAt := s.acceptedAt.filter fun _ at_ => now - at_ < s.retentionMs }

/-- The number of remembered signatures. -/
def size (s : Seen) : Nat := s.acceptedAt.size

/-! ## Small lemmas -/

@[simp] theorem mark_retentionMs (s : Seen) (signature : String) (now : Nat) :
    (s.mark signature now).1.retentionMs = s.retentionMs := by
  unfold mark
  split <;> rfl

@[simp] theorem mark_accepted (s : Seen) (signature : String) (now : Nat) :
    (s.mark signature now).2 = !s.isSeen signature now := by
  unfold mark
  split <;> simp_all

theorem get?_mark (s : Seen) (signature other : String) (now : Nat) :
    (s.mark signature now).1.acceptedAt.get? other
      = if other = signature ∧ s.isSeen signature now = false then some now
        else s.acceptedAt.get? other := by
  unfold mark
  split
  · simp_all
  · simp_all [Table.get?_insert]

end Seen

end SwapFloor
