import ZoneBus.Message

/-!
# Bodies

The layout of a body by message type, words low byte first and each path with
its length in front:

* a packet is target path, source path, number, count, data length (one word
  each) and the data;
* a request is target path, source path and a code;
* a handshake is one byte;
* an event is target path, source path, identifier, two data words and a byte.

A body is read field by field from the front, and nothing may be left over.

## Main definitions

* `Packet.check` — refuses a packet number that is not below the count.
* `Message.body` — the body of a message.
* `BodyReader` — reading fields one after another.
* `Message.ofBody` — the message with a given type byte and body.
-/

namespace ZoneBus

/-! ### Writing -/

/-- Refuses a packet number that is not below the packet count. -/
def Packet.check (number count : UInt16) : Except ProtocolError Unit :=
  if number < count then .ok () else .error (.malformedPayload (.packetOutOfRange number count))

/-- The body of a packet. -/
def Packet.body (p : Packet) : Except ProtocolError Bytes := do
  Packet.check p.number p.count
  if p.data.length ≤ 65535 then
    return p.targetPath.encode ++ p.sourcePath.encode ++ wordBytes p.number ++
      wordBytes p.count ++ wordBytes (UInt16.ofNat p.data.length) ++ p.data
  else throw (.malformedPayload (.dataTooLong p.data.length))

/-- The body of a request. -/
def DataRequest.body (r : DataRequest) : Bytes :=
  r.targetPath.encode ++ r.sourcePath.encode ++ [r.code]

/-- The body of an event. -/
def Event.body (e : Event) : Bytes :=
  e.targetPath.encode ++ e.sourcePath.encode ++ wordBytes e.id ++ wordBytes e.data1 ++
    wordBytes e.data2 ++ [e.data3]

/-- The body of a message. -/
def Message.body : Message → Except ProtocolError Bytes
  | setData packet => packet.body
  | requestData request => .ok request.body
  | handshake kind => .ok [kind.byte]
  | .event e => .ok e.body
  | unknown _ body => .ok body

/-! ### Reading -/

/-- The rest of a body and its offset in the body. -/
structure Cursor where
  /-- How many bytes have been read. -/
  offset : Nat
  /-- The bytes not yet read. -/
  rest : Bytes
deriving DecidableEq

/-- Reads from a cursor and moves it on. -/
abbrev BodyReader (α : Type) := StateT Cursor (Except ProtocolError) α

namespace BodyReader

/-- The complaint that a field of the given width has too few bytes left. -/
def truncated (type : MessageType) (needed : Nat) (c : Cursor) : ProtocolError :=
  .malformedPayload (.truncated type needed c.offset c.rest.length)

/-- Reads a byte. -/
def byte (type : MessageType) : BodyReader UInt8 := fun c =>
  match c.rest with
  | b :: rest => .ok (b, ⟨c.offset + 1, rest⟩)
  | [] => .error (truncated type 1 c)

/-- Reads a word. -/
def word (type : MessageType) : BodyReader UInt16 := fun c =>
  match c.rest with
  | low :: high :: rest => .ok (wordOfBytes low high, ⟨c.offset + 2, rest⟩)
  | _ => .error (truncated type 2 c)

/-- Reads the given number of bytes. -/
def bytes (type : MessageType) (n : Nat) : BodyReader Bytes := fun c =>
  if c.rest.length < n then .error (truncated type n c)
  else .ok (c.rest.take n, ⟨c.offset + n, c.rest.drop n⟩)

/-- Reads a path. -/
def path : BodyReader Path := fun c =>
  match Path.decode c.rest with
  | .ok (p, rest) => .ok (p, ⟨c.offset + p.encodedLength, rest⟩)
  | .error e => .error e

/-- Refuses bytes that are left over. -/
def finish (type : MessageType) : BodyReader Unit := fun c =>
  match c.rest with
  | [] => .ok ((), c)
  | rest => .error (.malformedPayload (.trailing type rest.length))

/-- Reads a packet.  Its numbers are checked once nothing is left over. -/
def packet : BodyReader Packet := do
  let targetPath ← path
  let sourcePath ← path
  let number ← word .setData
  let count ← word .setData
  let length ← word .setData
  let data ← bytes .setData length.toNat
  finish .setData
  Packet.check number count
  return { targetPath, sourcePath, number, count, data }

/-- Reads a request. -/
def dataRequest : BodyReader DataRequest := do
  let targetPath ← path
  let sourcePath ← path
  let code ← byte .requestData
  finish .requestData
  return { targetPath, sourcePath, code }

/-- Reads a handshake. -/
def handshake : BodyReader HandshakeKind := do
  let code ← byte .handshake
  finish .handshake
  return .ofByte code

/-- Reads an event. -/
def event : BodyReader Event := do
  let targetPath ← path
  let sourcePath ← path
  let id ← word .event
  let data1 ← word .event
  let data2 ← word .event
  let data3 ← byte .event
  finish .event
  return { targetPath, sourcePath, id, data1, data2, data3 }

/-- Reads a whole body. -/
def read {α : Type} (reader : BodyReader α) (body : Bytes) : Except ProtocolError α :=
  (reader.run ⟨0, body⟩).map Prod.fst

end BodyReader

/-- The message with the given type byte and body.  A type byte without a known
layout keeps the body as it is. -/
def Message.ofBody (typeByte : UInt8) (body : Bytes) : Except ProtocolError Message :=
  match MessageType.ofByte? typeByte with
  | some .setData => (BodyReader.packet.read body).map .setData
  | some .requestData => (BodyReader.dataRequest.read body).map .requestData
  | some .handshake => (BodyReader.handshake.read body).map .handshake
  | some .event => (BodyReader.event.read body).map .event
  | none => .ok (.unknown typeByte body)

end ZoneBus
