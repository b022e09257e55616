import ZoneBus.Counter
import ZoneBus.Directory
import ZoneBus.Message

/-!
# Subscriptions

Somebody subscribes to a path of a device and is called for every fragment and
every whole value that arrives there.  The callbacks of one place run in the
order of subscription.  Who is called is settled before the first callback runs,
so a callback may subscribe and unsubscribe as it likes.

## Main definitions

* `PathUpdate` — what happened at a path.
* `Subscriptions` — the subscriptions by place and by number.
* `Subscriptions.subscribe`, `Subscriptions.unsubscribe` — changing them.
* `Subscriptions.subscribers` — who is called for a place, in order.
* `Subscriptions.notify` — running the callbacks.
-/

namespace ZoneBus

/-- The number of a subscription. -/
abbrev SubscriptionId := Nat

/-- A path of a device. -/
abbrev Place := Address × Path

/-- What happened at a path. -/
inductive PathUpdate where
  /-- A packet of a transfer arrived. -/
  | fragment (device : Address) (path : Path) (number count : UInt16) (bytes : Bytes)
  /-- A transfer ended with this value. -/
  | complete (device : Address) (path : Path) (value : Bytes)
deriving DecidableEq

/-- The subscriptions, each with a callback. -/
structure Subscriptions (α : Type) where
  /-- Numbers the subscriptions. -/
  ids : Counter
  /-- The subscriptions of each place, oldest first. -/
  byPlace : Directory Place (List (SubscriptionId × α))
  /-- The place of each subscription. -/
  byId : Directory SubscriptionId Place

namespace Subscriptions

variable {α : Type}

/-- No subscriptions. -/
def empty : Subscriptions α := ⟨.fresh, .empty, .empty⟩

instance : Inhabited (Subscriptions α) := ⟨empty⟩

/-- The number of subscriptions. -/
def size (s : Subscriptions α) : Nat := s.byId.size

/-- Who is called for a place, in the order of subscription. -/
def subscribers (s : Subscriptions α) (place : Place) : List (SubscriptionId × α) :=
  (s.byPlace.find? place).getD []

/-- Subscribes a callback to a place. -/
def subscribe (s : Subscriptions α) (place : Place) (callback : α) :
    SubscriptionId × Subscriptions α :=
  let (id, ids) := s.ids.next
  (id,
    { ids := ids
      byPlace := s.byPlace.put place (s.subscribers place ++ [(id, callback)])
      byId := s.byId.put id place })

/-- Ends a subscription; tells whether there was one. -/
def unsubscribe (s : Subscriptions α) (id : SubscriptionId) : Bool × Subscriptions α :=
  match s.byId.find? id with
  | none => (false, s)
  | some place =>
    let rest := (s.subscribers place).filter fun e => decide (e.1 ≠ id)
    (true,
      { s with
        byPlace := if rest.isEmpty then s.byPlace.erase place else s.byPlace.put place rest
        byId := s.byId.erase id })

/-- Runs the callbacks of a place on a state that may hold the subscriptions
themselves; tells how many ran. -/
def notify {σ : Type} (s : Subscriptions α) (place : Place)
    (call : σ → SubscriptionId → α → σ) (state : σ) : Nat × σ :=
  let called := s.subscribers place
  (called.length, called.foldl (fun st e => call st e.1 e.2) state)

end Subscriptions

end ZoneBus
