import ZoneBus.Message

/-!
# Putting a value together

A value arrives in fragments.  A buffer keeps the transfer in progress apart from
the last value that was published whole, so a reader never sees part of a value,
and an abandoned transfer leaves the value before it in place.

Numbered packets drive the same cycle without gaps: packet zero opens a transfer,
every other packet must be the next one and carry the same count, and the packet
that completes the count publishes.  A packet out of sequence abandons the
transfer.

## Main definitions

* `Buffer` — the buffer of one path.
* `Buffer.begin`, `Buffer.write`, `Buffer.finish`, `Buffer.abandon` — the cycle.
* `Buffer.writePacket` — the cycle driven by a numbered packet.
* `BufferState`, `Buffer.state` — where a buffer stands.
* `BufferError` — why an operation was refused.
-/

namespace ZoneBus

/-- Why an operation on a buffer was refused. -/
inductive BufferError where
  /-- No transfer is open at the path. -/
  | noActiveWrite (path : Path)
  /-- A packet did not continue the open transfer, which is abandoned. -/
  | outOfSequence (path : Path) (expected expectedCount number count : UInt16)
deriving DecidableEq

/-- The text of a refusal. -/
def BufferError.message : BufferError → String
  | noActiveWrite path => s!"no write in progress for path {path.display}"
  | outOfSequence path expected expectedCount number count =>
    s!"packet {number.toNat}/{count.toNat} for path {path.display} out of sequence " ++
      s!"(expected {expected.toNat}/{expectedCount.toNat})"

/-- A point in time, in milliseconds. -/
abbrev Instant := Nat

/-- A transfer in progress. -/
structure OpenTransfer where
  /-- What has arrived, the latest fragment first. -/
  fragments : List Bytes
  /-- The packet number that comes next. -/
  next : UInt16
  /-- The packet count of the transfer. -/
  count : UInt16
deriving DecidableEq

namespace OpenTransfer

/-- A transfer that nothing has arrived for. -/
def start (count : UInt16) : OpenTransfer := ⟨[], 0, count⟩

/-- All bytes that have arrived, in order. -/
def bytes (t : OpenTransfer) : Bytes := t.fragments.reverse.flatten

/-- Takes one more fragment. -/
def add (t : OpenTransfer) (fragment : Bytes) : OpenTransfer :=
  { t with fragments := fragment :: t.fragments }

@[simp] theorem bytes_start (count : UInt16) : (start count).bytes = [] := rfl

@[simp] theorem bytes_add (t : OpenTransfer) (fragment : Bytes) :
    (t.add fragment).bytes = t.bytes ++ fragment := by
  simp [bytes, add]

end OpenTransfer

/-- A value that was published whole. -/
structure Publication where
  /-- The value. -/
  value : Bytes
  /-- When it was published. -/
  time : Instant
deriving DecidableEq

/-- Where a buffer stands. -/
inductive BufferState where
  /-- Nothing was published and no transfer is open. -/
  | empty
  /-- A transfer is open. -/
  | writing
  /-- A value was published and no transfer is open. -/
  | complete
deriving DecidableEq, Repr

/-- The buffer of one path. -/
structure Buffer where
  /-- The path whose value it holds. -/
  path : Path
  /-- The transfer in progress. -/
  transfer : Option OpenTransfer
  /-- The last value published whole. -/
  published : Option Publication
deriving DecidableEq

namespace Buffer

/-- A buffer that nothing was written to. -/
def fresh (path : Path) : Buffer := ⟨path, none, none⟩

/-- Where the buffer stands. -/
def state (b : Buffer) : BufferState :=
  match b.transfer, b.published with
  | some _, _ => .writing
  | none, some _ => .complete
  | none, none => .empty

/-- The last value published whole. -/
def read (b : Buffer) : Option Bytes := b.published.map Publication.value

/-- When the last value was published. -/
def lastModified (b : Buffer) : Option Instant := b.published.map Publication.time

/-- The bytes of the transfer in progress; none outside a transfer. -/
def pendingBytes (b : Buffer) : Bytes := (b.transfer.map OpenTransfer.bytes).getD []

/-- Opens a transfer and discards an unfinished one. -/
def begin (b : Buffer) : Buffer := { b with transfer := some (.start 0) }

/-- Discards the transfer in progress. -/
def abandon (b : Buffer) : Buffer := { b with transfer := none }

/-- Publishes what a transfer has gathered, and closes it. -/
def publish (b : Buffer) (now : Instant) (t : OpenTransfer) : Buffer :=
  { b with transfer := none, published := some ⟨t.bytes, now⟩ }

/-- Adds a fragment to the open transfer. -/
def write (b : Buffer) (fragment : Bytes) : Except BufferError Unit × Buffer :=
  match b.transfer with
  | none => (.error (.noActiveWrite b.path), b)
  | some t => (.ok (), { b with transfer := some (t.add fragment) })

/-- Closes the open transfer and publishes its value. -/
def finish (b : Buffer) (now : Instant) : Except BufferError Bytes × Buffer :=
  match b.transfer with
  | none => (.error (.noActiveWrite b.path), b)
  | some t => (.ok t.bytes, b.publish now t)

/-- Takes the fragment of a packet whose number fits the transfer, and publishes
the value when the packet completes the count. -/
def accept (b : Buffer) (now : Instant) (t : OpenTransfer) (number : UInt16) (fragment : Bytes) :
    Option Bytes × Buffer :=
  let t' := { t.add fragment with next := nextNumber number }
  if t'.count ≤ t'.next then (some t'.bytes, b.publish now t')
  else (none, { b with transfer := some t' })

/-- Takes a numbered packet.  The value is returned when the packet completes it. -/
def writePacket (b : Buffer) (now : Instant) (number count : UInt16) (fragment : Bytes) :
    Except BufferError (Option Bytes) × Buffer :=
  if number = 0 then
    let (value, b') := b.accept now (.start count) number fragment
    (.ok value, b')
  else
    match b.transfer with
    | none => (.error (.noActiveWrite b.path), b)
    | some t =>
      if number = t.next ∧ count = t.count then
        let (value, b') := b.accept now t number fragment
        (.ok value, b')
      else (.error (.outOfSequence b.path t.next t.count number count), b.abandon)

end Buffer

end ZoneBus
