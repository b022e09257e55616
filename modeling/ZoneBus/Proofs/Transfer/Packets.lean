import Mathlib.Data.List.Basic
import ZoneBus.Transfer

/-!
# The packets of a value

The pieces of a value make up the value, and none is longer than a packet may
be; the packets are the pieces in order, numbered from zero, with their number as
the count of each.

## Main definitions

* `numbered` — pieces as packets, numbered from some number on.

## Main results

* `chunks_flatten`, `length_of_mem_chunks`, `chunks_ne_nil` — the pieces of a value.
* `transfer_eq_ok` — the packets of a value.
-/

namespace ZoneBus

/-! ### Pieces -/

theorem chunks_last {data : Bytes} (h : data.drop packetSize = []) : chunks data = [data] := by
  rw [chunks]
  split
  · rfl
  · next heq => rw [h] at heq; cases heq

theorem chunks_more {data rest : Bytes} {b : UInt8} (h : data.drop packetSize = b :: rest) :
    chunks data = data.take packetSize :: chunks (b :: rest) := by
  rw [chunks]
  split
  · next heq => rw [h] at heq; cases heq
  · next heq =>
    rw [h] at heq
    obtain ⟨rfl, rfl⟩ := List.cons.inj heq
    rfl

/-- The pieces make up the value. -/
theorem chunks_flatten (data : Bytes) : (chunks data).flatten = data := by
  induction data using chunks.induct with
  | case1 data h => rw [chunks_last h, List.flatten_singleton]
  | case2 data b rest h ih =>
    rw [chunks_more h, List.flatten_cons, ih, ← h, List.take_append_drop]

/-- No piece is longer than a packet may be. -/
theorem length_of_mem_chunks (data : Bytes) :
    ∀ piece ∈ chunks data, piece.length ≤ packetSize := by
  induction data using chunks.induct with
  | case1 data h =>
    intro piece hm
    rw [chunks_last h, List.mem_singleton] at hm
    subst hm
    exact List.drop_eq_nil_iff.mp h
  | case2 data b rest h ih =>
    rw [chunks_more h, List.forall_mem_cons]
    exact ⟨List.length_take_le _ _, ih⟩

/-- There is always a piece, if only an empty one. -/
theorem chunks_ne_nil (data : Bytes) : chunks data ≠ [] := by
  cases h : data.drop packetSize with
  | nil => rw [chunks_last h]; exact List.cons_ne_nil _ _
  | cons b rest => rw [chunks_more h]; exact List.cons_ne_nil _ _

/-! ### Packets -/

/-- Pieces as packets, numbered from some number on, each with the same count. -/
def numbered (targetPath sourcePath : Path) (count : Nat) : Nat → List Bytes → List Packet
  | _, [] => []
  | i, piece :: rest =>
    ⟨targetPath, sourcePath, UInt16.ofNat i, UInt16.ofNat count, piece⟩ ::
      numbered targetPath sourcePath count (i + 1) rest

theorem length_numbered (targetPath sourcePath : Path) (count : Nat) :
    ∀ (pieces : List Bytes) (i : Nat),
      (numbered targetPath sourcePath count i pieces).length = pieces.length := by
  intro pieces
  induction pieces with
  | nil => exact fun _ => rfl
  | cons piece pieces ih =>
    intro i
    rw [numbered, List.length_cons, ih, List.length_cons]

theorem mapIdx_eq_numbered (targetPath sourcePath : Path) (count : Nat) :
    ∀ (pieces : List Bytes) (i : Nat),
      (pieces.mapIdx fun j piece =>
          (⟨targetPath, sourcePath, UInt16.ofNat (i + j), UInt16.ofNat count, piece⟩ : Packet)) =
        numbered targetPath sourcePath count i pieces := by
  intro pieces
  induction pieces with
  | nil => exact fun _ => rfl
  | cons piece pieces ih =>
    intro i
    rw [List.mapIdx_cons, numbered, ← ih (i + 1), Nat.add_zero]
    refine congrArg _ (congrArg (fun f => List.mapIdx f pieces) ?_)
    funext j piece'
    rw [Nat.add_assoc, Nat.add_comm 1 j]

/-- **The packets of a value** are its pieces in order, numbered from zero. -/
theorem transfer_eq_ok {targetPath sourcePath : Path} {data : Bytes} {packets : List Packet}
    (h : transfer targetPath sourcePath data = .ok packets) :
    (chunks data).length ≤ maxPacketCount ∧
      packets = numbered targetPath sourcePath (chunks data).length 0 (chunks data) := by
  rw [transfer] at h
  split at h
  · next hle =>
    refine ⟨hle, ?_⟩
    rw [← Except.ok.inj h, ← mapIdx_eq_numbered]
    simp only [Nat.zero_add]
  · cases h

end ZoneBus
