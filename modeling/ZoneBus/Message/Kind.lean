import ZoneBus.Bytes

/-!
# Message types

The byte after the two addresses of a frame says which layout its body has.
Four values are in use; any other belongs to a message this library carries
without interpreting it.

## Main definitions

* `MessageType` — the interpreted message types.
* `MessageType.byte`, `MessageType.ofByte?` — their bytes and back.
* `MessageType.name` — the name used in error texts.
-/

namespace ZoneBus

/-- The message types whose bodies have a known layout. -/
inductive MessageType where
  /-- One packet of a value. -/
  | setData
  /-- A request for a value. -/
  | requestData
  /-- An acknowledgement. -/
  | handshake
  /-- A key press or command. -/
  | event
deriving DecidableEq, Repr

namespace MessageType

/-- The byte that stands for a message type. -/
def byte : MessageType → UInt8
  | setData => 0x00
  | requestData => 0x01
  | handshake => 0x02
  | event => 0x05

/-- The message type that a byte stands for, if any. -/
def ofByte? (b : UInt8) : Option MessageType :=
  if b = 0x00 then some setData
  else if b = 0x01 then some requestData
  else if b = 0x02 then some handshake
  else if b = 0x05 then some event
  else none

/-- The name of a message type. -/
def name : MessageType → String
  | setData => "SetData"
  | requestData => "RequestData"
  | handshake => "Handshake"
  | event => "Event"

@[simp] theorem ofByte?_byte (t : MessageType) : ofByte? t.byte = some t := by
  cases t <;> decide

/-- Only the byte of a message type stands for it. -/
theorem byte_of_ofByte? {b : UInt8} {t : MessageType} (h : ofByte? b = some t) : t.byte = b := by
  unfold ofByte? at h
  split at h
  · cases h; simp_all [byte]
  · split at h
    · cases h; simp_all [byte]
    · split at h
      · cases h; simp_all [byte]
      · split at h
        · cases h; simp_all [byte]
        · cases h

end MessageType

end ZoneBus
