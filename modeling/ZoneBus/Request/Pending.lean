import ZoneBus.Directory
import ZoneBus.Reassembly.Buffer
import ZoneBus.Request.Key
import ZoneBus.Request.Outcome

/-!
# Requests that have not ended

Every frame is registered here before it is queued, and stays until it ends: by
an answer, by being written when no answer belongs to it, by running out of
attempts, or by being withdrawn.  Requests with the same key stand in line, and
an answer ends the one at the front.

A request has a deadline from the moment its frame is written until the deadline
has passed; then it is sent once more, or, when no retry is left, it times out.

## Main definitions

* `OutboundFrame` — a frame on its way out, with the request it belongs to.
* `PendingRequest` — a request that has not ended.
* `PendingTable` — all of them, and the lines by key.
* `PendingTable.insert`, `markWritten`, `resolve`, `cancel`, `expire`,
  `failAll` — its operations.  Those that end requests say which, and how.
-/

namespace ZoneBus

/-- The number of a request, which never reaches the wire. -/
abbrev RequestId := Nat

/-- A frame on its way out. -/
structure OutboundFrame where
  /-- The request it belongs to. -/
  id : RequestId
  /-- The message and its addresses. -/
  envelope : Envelope
  /-- The bytes to be written. -/
  bytes : Bytes
deriving DecidableEq

/-- A request that has not ended. -/
structure PendingRequest where
  /-- Its frame. -/
  frame : OutboundFrame
  /-- How urgent it is. -/
  priority : Priority
  /-- What answers it, if anything does. -/
  key : Option ReplyKey
  /-- When it is overdue; only between being written and that moment. -/
  deadline : Option Instant
  /-- How often it may still be sent again. -/
  retries : UInt32
  /-- How often it has been written. -/
  attempts : UInt32
deriving DecidableEq

/-- A request as it is registered: not yet written. -/
def PendingRequest.fresh (frame : OutboundFrame) (priority : Priority) (key : Option ReplyKey)
    (retries : UInt32) : PendingRequest :=
  ⟨frame, priority, key, none, retries, 0⟩

/-- Whether a request is overdue. -/
def PendingRequest.isOverdue (r : PendingRequest) (now : Instant) : Bool :=
  match r.deadline with
  | some deadline => decide (deadline ≤ now)
  | none => false

/-- What becomes of the one who waits for a request. -/
inductive Ending where
  /-- The outcome is delivered. -/
  | outcome (outcome : Outcome)
  /-- Another request with the same number took the place. -/
  | replaced
deriving DecidableEq

/-- A request that ended, and how. -/
structure Settled where
  /-- The request. -/
  id : RequestId
  /-- How it ended. -/
  ending : Ending
deriving DecidableEq

/-- What becomes of an overdue request. -/
inductive Expiry where
  /-- Its frame is sent once more; this will be the attempt with the given number. -/
  | resend (frame : OutboundFrame) (priority : Priority) (attempt : UInt32)
  /-- It ended after the given number of attempts. -/
  | timedOut (id : RequestId) (attempts : UInt32)
deriving DecidableEq

/-- The overdue request. -/
def Expiry.id : Expiry → RequestId
  | resend frame _ _ => frame.id
  | timedOut id _ => id

/-- All requests that have not ended. -/
structure PendingTable where
  /-- The requests by number. -/
  requests : Directory RequestId PendingRequest
  /-- The requests that wait for the same answer, oldest first. -/
  lines : Directory ReplyKey (List RequestId)

namespace PendingTable

/-- The table without requests. -/
def empty : PendingTable := ⟨.empty, .empty⟩

instance : Inhabited PendingTable := ⟨empty⟩

/-- The number of requests. -/
def size (t : PendingTable) : Nat := t.requests.size

/-- Whether a request has not ended. -/
def contains (t : PendingTable) (id : RequestId) : Bool := t.requests.contains id

/-- The line of a key; empty when there is none. -/
def line (t : PendingTable) (key : ReplyKey) : List RequestId := (t.lines.find? key).getD []

/-- Makes a line out of a list; an empty line is not kept. -/
def setLine (lines : Directory ReplyKey (List RequestId)) (key : ReplyKey)
    (ids : List RequestId) : Directory ReplyKey (List RequestId) :=
  if ids.isEmpty then lines.erase key else lines.put key ids

/-- Registers a request at the end of its line. -/
def insert (t : PendingTable) (r : PendingRequest) : List Settled × PendingTable :=
  let replaced := if t.contains r.frame.id then [⟨r.frame.id, .replaced⟩] else []
  let lines :=
    match r.key with
    | some key => setLine t.lines key (t.line key ++ [r.frame.id])
    | none => t.lines
  (replaced, ⟨t.requests.put r.frame.id r, lines⟩)

/-- Takes a request out of its line. -/
def unlink (t : PendingTable) (key : Option ReplyKey) (id : RequestId) :
    Directory ReplyKey (List RequestId) :=
  match key with
  | none => t.lines
  | some key =>
    match t.lines.find? key with
    | none => t.lines
    | some ids => setLine t.lines key (ids.filter fun i => decide (i ≠ id))

/-- Takes out a request and its place in line. -/
def remove (t : PendingTable) (id : RequestId) (r : PendingRequest) : PendingTable :=
  ⟨t.requests.erase id, t.unlink r.key id⟩

/-- Notes that the frame of a request was written.  Its deadline starts when an
answer belongs to it, which the result tells; otherwise the request ends. -/
def markWritten (t : PendingTable) (id : RequestId) (now timeout : Nat) :
    Bool × List Settled × PendingTable :=
  match t.requests.find? id with
  | none => (false, [], t)
  | some r =>
    match r.key with
    | some _ =>
      let r' := { r with attempts := r.attempts + 1, deadline := some (now + timeout) }
      (true, [], { t with requests := t.requests.put id r' })
    | none =>
      (false, [⟨id, .outcome (.success .sent)⟩], { t with requests := t.requests.erase id })

/-- Ends the request at the front of a line with a reply, and tells which. -/
def resolve (t : PendingTable) (key : ReplyKey) (reply : Reply) :
    Option RequestId × List Settled × PendingTable :=
  match t.lines.find? key with
  | none => (none, [], t)
  | some [] => (none, [], { t with lines := t.lines.erase key })
  | some (id :: rest) =>
    let lines := setLine t.lines key rest
    if t.contains id then
      (some id, [⟨id, .outcome (.success reply)⟩], ⟨t.requests.erase id, lines⟩)
    else (none, [], { t with lines := lines })

/-- Withdraws a request with a failure; tells whether it had not ended. -/
def cancel (t : PendingTable) (id : RequestId) (error : SessionError) :
    Bool × List Settled × PendingTable :=
  match t.requests.find? id with
  | none => (false, [], t)
  | some r => (true, [⟨id, .outcome (.failure error)⟩], t.remove id r)

/-- The overdue requests. -/
def overdue (t : PendingTable) (now : Instant) : List RequestId :=
  (t.requests.entries.filter fun e => e.2.isOverdue now).map Prod.fst

/-- What an expiry produces, and the table after it. -/
structure Expired where
  /-- What became of the requests. -/
  results : List Expiry
  /-- The requests that ended. -/
  settled : List Settled
  /-- The table. -/
  table : PendingTable

/-- Sends an overdue request once more, or ends it when no retry is left. -/
def expireOne (acc : Expired) (id : RequestId) : Expired :=
  match acc.table.requests.find? id with
  | none => acc
  | some r =>
    if 0 < r.retries then
      let r' := { r with retries := r.retries - 1, deadline := none }
      { acc with
        results := acc.results ++ [.resend r.frame r.priority (r.attempts + 1)]
        table := { acc.table with requests := acc.table.requests.put id r' } }
    else
      { results := acc.results ++ [.timedOut id r.attempts]
        settled := acc.settled ++ [⟨id, .outcome (.failure (.timeout r.attempts))⟩]
        table := acc.table.remove id r }

/-- Handles the given overdue requests one after another. -/
def expireIn (t : PendingTable) (order : List RequestId) : Expired :=
  order.foldl expireOne ⟨[], [], t⟩

/-- Handles every overdue request. -/
def expire (t : PendingTable) (now : Instant) : Expired := t.expireIn (t.overdue now)

/-- Ends every request with a failure. -/
def failAll (t : PendingTable) (error : SessionError) : Nat × List Settled × PendingTable :=
  (t.size, t.requests.keys.map fun id => ⟨id, .outcome (.failure error)⟩, empty)

/-- The earliest deadline. -/
def nextDeadline? (t : PendingTable) : Option Instant :=
  (t.requests.values.filterMap PendingRequest.deadline).min?

end PendingTable

end ZoneBus
