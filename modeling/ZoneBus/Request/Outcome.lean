import ZoneBus.Link.Error
import ZoneBus.Message

/-!
# How a request ends

A request ends once: with a reply, or with a failure.

## Main definitions

* `Reply` — how a request succeeds.
* `SessionError` — how a request, or an operation of a session, fails.
* `Outcome` — how a request ends.
* `SessionError.message` — the text of a failure.
-/

namespace ZoneBus

/-- How a request succeeds. -/
inductive Reply where
  /-- The peer acknowledged it. -/
  | ack (kind : HandshakeKind)
  /-- The peer answered with a whole value. -/
  | data (value : Bytes)
  /-- It was written, and no answer belongs to it. -/
  | sent
deriving DecidableEq

/-- The reply as it is written in a text about it. -/
def Reply.describe : Reply → String
  | ack kind => s!"Ack({kind.describe})"
  | data value =>
    "Data([" ++ String.intercalate ", " (value.map fun b => toString b.toNat) ++ "])"
  | sent => "Sent"

/-- How a request, or an operation of a session, fails. -/
inductive SessionError where
  /-- The session has not been started. -/
  | notStarted
  /-- The session is running already. -/
  | alreadyStarted
  /-- The message has no wire form. -/
  | encode (cause : ProtocolError)
  /-- The link could not be opened, or failed while the request was pending. -/
  | connection (cause : LinkError)
  /-- No answer came after this many attempts. -/
  | timeout (attempts : UInt32)
  /-- The request was withdrawn, or the session stopped. -/
  | cancelled
  /-- An answer came, of the wrong kind. -/
  | unexpectedReply (reply : Reply)
deriving DecidableEq

namespace SessionError

/-- The text of a failure. -/
def message : SessionError → String
  | notStarted => "session is not started"
  | alreadyStarted => "session is already started"
  | encode cause => "could not encode message: " ++ cause.message
  | connection cause => "connection failure: " ++ cause.message
  | timeout attempts => s!"no reply after {attempts.toNat} attempt(s)"
  | cancelled => "request cancelled"
  | unexpectedReply reply => "unexpected reply: " ++ reply.describe

/-- Whether the failure is a cancellation. -/
def isCancelled : SessionError → Bool
  | cancelled => true
  | _ => false

/-- Whether the failure is that no answer came in time. -/
def isTimeout : SessionError → Bool
  | timeout _ => true
  | _ => false

end SessionError

/-- How a request ends. -/
inductive Outcome where
  /-- With a reply. -/
  | success (reply : Reply)
  /-- With a failure. -/
  | failure (error : SessionError)
deriving DecidableEq

end ZoneBus
