import ZoneBus.Error

/-!
# Keeping within bounds

Bytes can be taken from between two places, or a number from another one, only when the
places are in order and within the bytes, and the number is not the greater one.  What is
computed by places says so at every step, and comes to nothing at the first step out of
bounds; whatever else may go wrong is an error, as it is elsewhere.

## Main definitions

* `slice?`, `splitAt?`, `byteAt?`, `sub?` — bytes between two places, bytes on both sides of a
  place, the byte at a place, and a difference, within bounds.
* `Bounded` — a computation that may step out of bounds, or end in an error.
-/

namespace ZoneBus

/-- The bytes from one place up to another. -/
def slice? (bs : Bytes) (first last : Nat) : Option Bytes :=
  if first ≤ last ∧ last ≤ bs.length then some ((bs.take last).drop first) else none

/-- The bytes before a place, and the others. -/
def splitAt? (bs : Bytes) (place : Nat) : Option (Bytes × Bytes) :=
  if place ≤ bs.length then some (bs.take place, bs.drop place) else none

/-- The byte at a place. -/
def byteAt? (bs : Bytes) (place : Nat) : Option UInt8 := bs[place]?

/-- A number less another one. -/
def sub? (a b : Nat) : Option Nat := if b ≤ a then some (a - b) else none

/-- A computation that may step out of bounds, which leaves nothing, or end in an error. -/
abbrev Bounded (α : Type) := ExceptT ProtocolError Option α

variable {bs : Bytes} {α β : Type}

/-- All bytes from a place on. -/
theorem slice?_drop {place : Nat} (h : place ≤ bs.length) :
    slice? bs place bs.length = some (bs.drop place) := by
  rw [slice?, if_pos ⟨h, Nat.le_refl _⟩, List.take_length]

/-- The first bytes. -/
theorem slice?_take {n : Nat} (h : n ≤ bs.length) : slice? bs 0 n = some (bs.take n) := by
  rw [slice?, if_pos ⟨Nat.zero_le n, h⟩, List.drop_zero]

theorem splitAt?_concat (b : UInt8) : splitAt? (bs ++ [b]) bs.length = some (bs, [b]) := by
  rw [splitAt?, if_pos (by simp), List.take_left, List.drop_left]

theorem sub?_of_le {a b : Nat} (h : b ≤ a) : sub? a b = some (a - b) := if_pos h

/-- Within bounds, a step goes on with what it gives. -/
@[simp] theorem liftM_some_bind (a : α) (f : α → Bounded β) :
    ((liftM (some a) : Bounded α) >>= f) = f a := rfl

end ZoneBus
