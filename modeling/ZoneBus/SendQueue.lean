import ZoneBus.Message

/-!
# The send queue

Many senders, one writer.  An urgent item leaves before every other item however
long that has waited; items of one priority leave in the order of their arrival.
A closed queue is empty and refuses items until it is opened again.

The writer that finds nothing waits to be woken.  A wake-up that finds nobody
waiting is kept, at most one of them, and ends the next wait at once.

## Main definitions

* `SendQueue` — the items by priority, and the state of the waiting.
* `SendQueue.push`, `tryPop`, `close`, `reopen` — the operations that never wait.
* `SendQueue.poll` — begins to wait for an item, or goes on after being woken.
* `SendQueue.wakeOne`, `SendQueue.wakeAll` — waking the writer.
-/

namespace ZoneBus

/-- Whether somebody waits for an item. -/
inductive Waiter where
  /-- Nobody waits. -/
  | absent
  /-- Somebody waits. -/
  | waiting
  /-- Somebody was woken and has not gone on yet. -/
  | woken
deriving DecidableEq, Repr

/-- Items waiting to be written. -/
structure SendQueue (α : Type) where
  /-- The urgent items, oldest first. -/
  high : List α
  /-- The other items, oldest first. -/
  low : List α
  /-- Whether items are refused. -/
  closed : Bool
  /-- Whether a wake-up found nobody waiting. -/
  permit : Bool
  /-- Whether somebody waits. -/
  waiter : Waiter
deriving DecidableEq

/-- What waiting for an item has come to. -/
inductive Polled (α : Type) where
  /-- An item was taken. -/
  | item (a : α)
  /-- The queue is closed. -/
  | closed
  /-- There is nothing yet. -/
  | waiting
deriving DecidableEq

namespace SendQueue

variable {α : Type}

/-- An open queue without items. -/
def empty : SendQueue α := ⟨[], [], false, false, .absent⟩

instance : Inhabited (SendQueue α) := ⟨empty⟩

/-- The number of items. -/
def size (q : SendQueue α) : Nat := q.high.length + q.low.length

/-- The items in the order in which they would leave. -/
def toList (q : SendQueue α) : List α := q.high ++ q.low

/-- Wakes the one who waits, or keeps the wake-up. -/
def wakeOne (q : SendQueue α) : SendQueue α :=
  match q.waiter with
  | .waiting => { q with waiter := .woken }
  | _ => { q with permit := true }

/-- Wakes everyone who waits; nothing is kept. -/
def wakeAll (q : SendQueue α) : SendQueue α :=
  match q.waiter with
  | .waiting => { q with waiter := .woken }
  | _ => q

/-- Adds an item behind those of its priority; nothing when the queue is closed. -/
def push (q : SendQueue α) (priority : Priority) (a : α) : Option (SendQueue α) :=
  if q.closed then none
  else
    match priority with
    | .high => some { q with high := q.high ++ [a] }.wakeOne
    | .low => some { q with low := q.low ++ [a] }.wakeOne

/-- Takes the oldest item of the highest priority there is. -/
def tryPop (q : SendQueue α) : Option (α × SendQueue α) :=
  match q.high, q.low with
  | a :: rest, _ => some (a, { q with high := rest })
  | [], a :: rest => some (a, { q with low := rest })
  | [], [] => none

/-- Drops all items, refuses new ones and wakes the writer; tells how many were
dropped. -/
def close (q : SendQueue α) : Nat × SendQueue α :=
  (q.size, { q with high := [], low := [], closed := true }.wakeAll.wakeOne)

/-- Takes items again. -/
def reopen (q : SendQueue α) : SendQueue α := { q with closed := false }

/-- Begins to wait for an item, or goes on after being woken.  A kept wake-up
only makes the writer look once more, and is used up by that. -/
def poll (q : SendQueue α) : Polled α × SendQueue α :=
  if q.closed then (.closed, { q with waiter := .absent })
  else
    match q.tryPop with
    | some (a, q') => (.item a, { q' with waiter := .absent })
    | none => (.waiting, { q with waiter := .waiting, permit := false })

/-- Lets the one who waits go on if it was woken. -/
def resume (q : SendQueue α) : Polled α × SendQueue α :=
  match q.waiter with
  | .woken => q.poll
  | _ => (.waiting, q)

/-- The one who waited gives up. -/
def leave (q : SendQueue α) : SendQueue α :=
  match q.waiter with
  | .woken => { q with waiter := .absent, permit := true }
  | _ => { q with waiter := .absent }

end SendQueue

end ZoneBus
