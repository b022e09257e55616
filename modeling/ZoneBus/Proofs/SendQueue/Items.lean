import Mathlib.Data.List.Perm.Basic
import ZoneBus.SendQueue

/-!
# The items of a send queue

Whoever is woken and however long anybody waits, an item that is pushed is there
once more, and the one that is popped is there once less.

## Main results

* `SendQueue.push_spec` — an open queue takes the item, a closed one refuses it.
* `SendQueue.toList_of_tryPop` — the popped item was the first to leave.
* `SendQueue.toList_close` — closing drops everything.
-/

namespace ZoneBus

namespace SendQueue

variable {α : Type}

@[simp] theorem toList_wakeOne (q : SendQueue α) : q.wakeOne.toList = q.toList := by
  unfold wakeOne
  split <;> rfl

@[simp] theorem closed_wakeOne (q : SendQueue α) : q.wakeOne.closed = q.closed := by
  unfold wakeOne
  split <;> rfl

theorem push_eq_none_iff {q : SendQueue α} {priority : Priority} {a : α} :
    q.push priority a = none ↔ q.closed = true := by
  rw [push.eq_def]
  cases q.closed <;> cases priority <;> simp

/-- An open queue takes the item and stays open. -/
theorem push_spec {q q' : SendQueue α} {priority : Priority} {a : α}
    (h : q.push priority a = some q') :
    q'.toList.Perm (a :: q.toList) ∧ q'.closed = q.closed := by
  rw [push.eq_def] at h
  split at h
  · cases h
  · cases priority with
    | high =>
      obtain rfl := Option.some.inj h
      rw [toList_wakeOne, closed_wakeOne]
      refine ⟨?_, rfl⟩
      show ((q.high ++ [a]) ++ q.low).Perm (a :: (q.high ++ q.low))
      rw [List.append_assoc]
      exact List.perm_middle
    | low =>
      obtain rfl := Option.some.inj h
      rw [toList_wakeOne, closed_wakeOne]
      refine ⟨?_, rfl⟩
      show (q.high ++ (q.low ++ [a])).Perm (a :: (q.high ++ q.low))
      rw [← List.append_assoc]
      exact List.perm_append_singleton a _

/-- The popped item was the first to leave; the others stay in order. -/
theorem toList_of_tryPop {q q' : SendQueue α} {a : α} (h : q.tryPop = some (a, q')) :
    q.toList = a :: q'.toList ∧ q'.closed = q.closed := by
  rw [tryPop] at h
  split at h
  · next hhigh =>
    obtain ⟨rfl, rfl⟩ := Prod.mk.inj (Option.some.inj h)
    refine ⟨?_, rfl⟩
    rw [toList, hhigh]; rfl
  · next hhigh hlow =>
    obtain ⟨rfl, rfl⟩ := Prod.mk.inj (Option.some.inj h)
    refine ⟨?_, rfl⟩
    rw [toList, toList, hhigh, hlow]; rfl
  · cases h

/-- A queue with items has one to take. -/
theorem exists_tryPop {q : SendQueue α} (h : q.toList ≠ []) : ∃ a q', q.tryPop = some (a, q') := by
  unfold tryPop
  split
  · exact ⟨_, _, rfl⟩
  · exact ⟨_, _, rfl⟩
  · next hhigh hlow =>
    rw [toList, hhigh, hlow] at h
    exact absurd rfl h

theorem toList_close (q : SendQueue α) : q.close.2.toList = [] ∧ q.close.2.closed = true := by
  unfold close wakeAll
  cases q.waiter <;> exact ⟨rfl, rfl⟩

end SendQueue

end ZoneBus
