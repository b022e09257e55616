import ZoneBus.Frame.Decoder
import ZoneBus.Message.Body

/-!
# Envelopes on the wire

An envelope is sent as a frame that has its addresses, its type byte and its
body.  A message whose frame would be longer than the scanner accepts is refused
before it is sent.

## Main definitions

* `Envelope.frame` — the frame of an envelope.
* `Envelope.encode` — the bytes of an envelope.
* `Envelope.ofFrame` — the envelope in a frame.
* `Envelope.decode` — the envelope in the first frame of some bytes.
-/

namespace ZoneBus

namespace Envelope

/-- The number of logical bytes, checksum included, of a frame with the given body. -/
def frameLength (body : Bytes) : Nat := 3 + 3 + 1 + body.length + 1

/-- The frame of an envelope, unless it would be longer than frames may be. -/
def frame (e : Envelope) : Except ProtocolError Frame := do
  let body ← e.message.body
  if frameLength body ≤ maxFrameLength then
    return ⟨e.target, e.source, e.message.typeByte, body⟩
  else throw (.malformedFrame (.tooLong e.message.type? (frameLength body)))

/-- The bytes of an envelope as they are sent. -/
def encode (e : Envelope) : Except ProtocolError Bytes := e.frame.map Frame.encode

/-- The envelope in a frame. -/
def ofFrame (f : Frame) : Except ProtocolError Envelope :=
  (Message.ofBody f.type f.body).map fun message => ⟨f.target, f.source, message⟩

/-- The envelope in the first frame of some bytes. -/
def decode (bs : Bytes) : Except ProtocolError Envelope := do
  ofFrame (← Frame.decode bs)

end Envelope

end ZoneBus
