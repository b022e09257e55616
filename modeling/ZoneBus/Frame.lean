import ZoneBus.Address
import ZoneBus.Error

/-!
# Frames

A frame carries one message between two addresses.  Its logical bytes are the
two addresses, the message type and the body; a checksum follows them, and the
whole stands between a start and an end marker.  Three byte values are reserved
for the markers and for the escape: between the markers each of them is written
as the escape marker followed by its complement.

## Main definitions

* `Frame` — addresses, message type and body.
* `Frame.logicalBytes` — the bytes that the checksum covers.
* `checksum` — the seven-bit checksum of logical bytes.
* `escapeByte`, `escape` — bytes as they are written between the markers.
* `Frame.encode` — the whole frame as it is written.
* `Frame.ofContent` — the frame in logical bytes followed by their checksum.
-/

namespace ZoneBus

/-! ### Markers -/

/-- The byte that starts a frame. -/
def startMarker : UInt8 := 0xF0

/-- The byte that ends a frame. -/
def endMarker : UInt8 := 0xF7

/-- The byte after which a complemented byte follows. -/
def escapeMarker : UInt8 := 0xF1

/-- Whether a byte has a meaning of its own between the markers. -/
def isReserved (b : UInt8) : Bool := b == startMarker || b == endMarker || b == escapeMarker

/-- A byte as it is written between the markers. -/
def escapeByte (b : UInt8) : Bytes := if isReserved b then [escapeMarker, ~~~b] else [b]

/-- Bytes as they are written between the markers. -/
def escape (bs : Bytes) : Bytes := bs.flatMap escapeByte

/-! ### Checksum -/

/-- The checksum of logical bytes: the start marker, the bytes and their number,
the start marker counted too, summed up and cut to seven bits. -/
def checksum (bs : Bytes) : UInt8 :=
  let sum : UInt32 := bs.foldl (fun acc b => acc + b.toUInt32) startMarker.toUInt32
  ((sum + (UInt32.ofNat bs.length + 1)) &&& 0x7F).toUInt8

/-! ### Frames -/

/-- One message between two addresses, its body not yet interpreted. -/
structure Frame where
  /-- The device the frame is for. -/
  target : Address
  /-- The device it comes from. -/
  source : Address
  /-- The message type byte. -/
  type : UInt8
  /-- The body. -/
  body : Bytes
deriving DecidableEq

namespace Frame

/-- The bytes that the checksum covers. -/
def logicalBytes (f : Frame) : Bytes := f.target.bytes ++ f.source.bytes ++ f.type :: f.body

/-- The logical bytes and their checksum. -/
def content (f : Frame) : Bytes := f.logicalBytes ++ [checksum f.logicalBytes]

/-- The frame as it is written: escaped, and between markers. -/
def encode (f : Frame) : Bytes := startMarker :: escape f.content ++ [endMarker]

/-- The frame in logical bytes followed by their checksum.  The length is
checked first, then the checksum. -/
def ofContent (content : Bytes) : Except ProtocolError Frame :=
  if content.length < minFrameLength then
    .error (.malformedFrame (.tooShort content.length))
  else
    let covered := content.dropLast
    let expected := checksum covered
    let actual := content.getLastD 0
    if actual ≠ expected then .error (.checksum expected actual)
    else
      match Address.ofBytes? covered, Address.ofBytes? (covered.drop 3), covered.drop 6 with
      | some target, some source, type :: body => .ok ⟨target, source, type, body⟩
      | _, _, _ => .error (.malformedAddress covered.length)

end Frame

end ZoneBus
