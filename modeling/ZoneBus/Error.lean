import ZoneBus.Message.Kind

/-!
# Why bytes and messages are refused

One type for every way in which an address, a path, a frame or a body can be
malformed.  Each cause carries the numbers that its text reports; the text
itself is made in one place, `ProtocolError.message`.

## Main definitions

* `FrameFault` — what is wrong with a frame as a whole.
* `PayloadFault` — what is wrong with a body or with the value to be sent.
* `ProtocolError` — every cause.
* `ProtocolError.message` — the text of a cause.
-/

namespace ZoneBus

/-- The fewest bytes of a frame, checksum included and escapes undone: two
addresses, the message type and the checksum. -/
def minFrameLength : Nat := 8

/-- The most bytes of a frame, checksum included and escapes undone. -/
def maxFrameLength : Nat := 2048

/-- The most elements of a path. -/
def maxPathLength : Nat := 255

/-- The most packets of one transfer. -/
def maxPacketCount : Nat := 65535

/-- What is wrong with a frame as a whole. -/
inductive FrameFault where
  /-- It has too few bytes to hold addresses, type and checksum. -/
  | tooShort (length : Nat)
  /-- A start marker came before its end, after this many of its bytes. -/
  | interrupted (dropped : Nat)
  /-- It ended right after an escape marker. -/
  | danglingEscape
  /-- It went on past the longest frame that is accepted. -/
  | oversized
  /-- The bytes ended before it did. -/
  | incomplete
  /-- A message would need a longer frame than is accepted. -/
  | tooLong (type : Option MessageType) (length : Nat)
deriving DecidableEq, Repr

/-- What is wrong with a body, or with the value that is to be sent in one. -/
inductive PayloadFault where
  /-- A field needs more bytes than are left at its offset. -/
  | truncated (type : MessageType) (needed offset available : Nat)
  /-- Bytes are left after the last field. -/
  | trailing (type : MessageType) (extra : Nat)
  /-- The packet number is not below the packet count. -/
  | packetOutOfRange (number count : UInt16)
  /-- There are more data bytes than the length field can tell. -/
  | dataTooLong (length : Nat)
  /-- There are more packets than the packet count can tell. -/
  | tooManyPackets (length packets : Nat)
deriving DecidableEq, Repr

/-- Why bytes or a message were refused. -/
inductive ProtocolError where
  /-- Fewer than three bytes for an address. -/
  | malformedAddress (available : Nat)
  /-- Fewer path elements than announced. -/
  | malformedPath (declared available : Nat)
  /-- More elements than a path may have. -/
  | pathTooLong (length : Nat)
  /-- The transmitted checksum is not the computed one. -/
  | checksum (expected actual : UInt8)
  /-- The frame as a whole is malformed. -/
  | malformedFrame (fault : FrameFault)
  /-- The body does not have the layout of its type. -/
  | malformedPayload (fault : PayloadFault)
deriving DecidableEq, Repr

/-- The text of a frame fault. -/
def FrameFault.message : FrameFault → String
  | tooShort length =>
    s!"frame of {length} bytes is shorter than the {minFrameLength}-byte minimum"
  | interrupted dropped => s!"start marker inside frame after {dropped} bytes"
  | danglingEscape => "frame ended inside an escape sequence"
  | oversized => s!"frame exceeds {maxFrameLength} bytes"
  | incomplete => "incomplete frame"
  | tooLong none length => s!"Unknown frame of {length} bytes exceeds {maxFrameLength} bytes"
  | tooLong (some type) length =>
    s!"{type.name} frame of {length} bytes exceeds {maxFrameLength} bytes"

/-- The text of a payload fault. -/
def PayloadFault.message : PayloadFault → String
  | truncated type needed offset available =>
    s!"{type.name}: need {needed} bytes at offset {offset}, got {available}"
  | trailing type extra => s!"{type.name}: {extra} unexpected trailing bytes"
  | packetOutOfRange number count =>
    s!"SetData: packet {number.toNat} of {count.toNat} is out of range"
  | dataTooLong length => s!"SetData: {length} data bytes exceed the 16-bit length field"
  | tooManyPackets length packets =>
    s!"SetData: {length} bytes need {packets} packets, more than {maxPacketCount}"

/-- The text of a cause. -/
def ProtocolError.message : ProtocolError → String
  | malformedAddress available => s!"malformed address: need 3 bytes, got {available}"
  | malformedPath declared available =>
    s!"malformed path: declared {declared} elements, {available} available"
  | pathTooLong length =>
    s!"path of {length} elements exceeds the {maxPathLength}-element maximum"
  | checksum expected actual =>
    s!"checksum mismatch: expected 0x{hexPair expected}, got 0x{hexPair actual}"
  | malformedFrame fault => "malformed frame: " ++ fault.message
  | malformedPayload fault => "malformed payload: " ++ fault.message

end ZoneBus
