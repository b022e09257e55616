import ZoneBus.Bytes

/-!
# The line to the far end

A line carries bytes both ways between a link and the far end.  What has arrived
waits in order until it is read.  Going out, the line takes as many bytes as it
has room for; further bytes have to wait until the far end has read.

## Main definitions

* `Arrival` — what waits to be read: bytes, a failure, or the end of the stream.
* `Line` — the two directions of a line.
* `Line.read` — what one read gives.
* `Line.write` — what one attempt to write and flush comes to.
* `Line.connect` — the line after the far end was reached anew.
* `Line.collect` — the far end reads what was written.
-/

namespace ZoneBus

/-- What waits to be read. -/
inductive Arrival where
  /-- Bytes; no bytes at all are read like the end of the stream. -/
  | data (bytes : Bytes)
  /-- Reading fails. -/
  | failure (reason : String)
  /-- The far end has finished. -/
  | endOfStream
deriving DecidableEq

/-- A line to the far end. -/
structure Line where
  /-- What has arrived and was not read. -/
  inbound : List Arrival
  /-- What was written and not yet collected by the far end. -/
  outbound : Bytes
  /-- How many bytes can still be written before writing has to wait. -/
  room : Option Nat
  /-- The room of a line that the far end was just reached on, when the far end
  makes room by reading. -/
  capacity : Option Nat
  /-- Why the next write fails. -/
  writeFailure : Option String
  /-- Why the next flush fails. -/
  flushFailure : Option String
  /-- Why the next shutdown fails. -/
  shutdownFailure : Option String
deriving DecidableEq

namespace Line

/-- A line on which nothing has happened, with the given room when the far end
makes room by reading. -/
def fresh (capacity : Option Nat) : Line := ⟨[], [], capacity, capacity, none, none, none⟩

/-- What one read gives. -/
inductive Read where
  /-- Bytes, at most as many as asked for. -/
  | data (bytes : Bytes)
  /-- Nothing more will come. -/
  | ended
  /-- Reading failed. -/
  | failed (reason : String)
deriving DecidableEq

/-- Reads at most the given number of bytes from what arrived first, or waits
while nothing has arrived. -/
def read (l : Line) (most : Nat) : Option (Read × Line) :=
  match l.inbound with
  | [] => none
  | .failure reason :: rest => some (.failed reason, { l with inbound := rest })
  | .endOfStream :: rest => some (.ended, { l with inbound := rest })
  | .data bytes :: rest =>
    let taken := bytes.take most
    let left := bytes.drop most
    let inbound := if left.isEmpty then rest else .data left :: rest
    some (if taken.isEmpty then .ended else .data taken, { l with inbound := inbound })

/-- What one attempt to write and flush comes to. -/
inductive Written where
  /-- Everything was taken and flushed. -/
  | done
  /-- These bytes still have to be written. -/
  | partly (rest : Bytes)
  /-- Writing or flushing failed. -/
  | failed (reason : String)
deriving DecidableEq

/-- How many of the given bytes there is room for. -/
def fitting (l : Line) (bytes : Bytes) : Nat :=
  match l.room with
  | none => bytes.length
  | some room => min room bytes.length

/-- Flushes what was written. -/
def flush (l : Line) : Written × Line :=
  match l.flushFailure with
  | some reason => (.failed reason, { l with flushFailure := none })
  | none => (.done, l)

/-- Writes as much as there is room for, and flushes once everything is written.
Waits while there are bytes and no room. -/
def write (l : Line) (bytes : Bytes) : Option (Written × Line) :=
  if bytes.isEmpty then some l.flush
  else
    match l.writeFailure with
    | some reason => some (.failed reason, { l with writeFailure := none })
    | none =>
      let n := l.fitting bytes
      if n = 0 then none
      else
        let l' := { l with
          outbound := l.outbound ++ bytes.take n
          room := l.room.map (· - n) }
        if n < bytes.length then some (.partly (bytes.drop n), l') else some l'.flush

/-- The line after the far end was reached anew.  What had arrived is gone; a far
end that makes room by reading starts with all its room. -/
def connect (l : Line) : Line :=
  match l.capacity with
  | none => { l with inbound := [] }
  | some capacity => fresh (some capacity)

/-- The far end reads what was written, and makes room when it does so by
reading. -/
def collect (l : Line) : Bytes × Line :=
  (l.outbound,
    { l with
      outbound := []
      room := match l.capacity with
        | none => l.room
        | some _ => l.room.map (· + l.outbound.length) })

/-- Something more arrives. -/
def arrive (l : Line) (a : Arrival) : Line := { l with inbound := l.inbound ++ [a] }

end Line

end ZoneBus
