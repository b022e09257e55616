import ZoneBus.Address
import ZoneBus.Path

/-!
# Messages

What one device tells another.  A value travels as one or more packets; a
request asks for a value; an event is a key press or a command; a handshake
acknowledges one of these.  Any other type is carried without being interpreted.

## Main definitions

* `Priority` — how urgent a message is.
* `HandshakeKind` — what a handshake acknowledges.
* `Packet`, `DataRequest`, `Event` — the bodies with fields of their own.
* `Message` — any message, and `Envelope` — a message between two addresses.
-/

namespace ZoneBus

/-! ### Priority -/

/-- How urgent a message is. -/
inductive Priority where
  /-- Waits for everything urgent. -/
  | low
  /-- Goes first. -/
  | high
deriving DecidableEq, Repr

namespace Priority

instance : Inhabited Priority := ⟨low⟩

/-- The priority byte of an event. -/
def byte : Priority → UInt8
  | low => 0x00
  | high => 0x01

/-- The priority that a byte stands for, if any. -/
def ofByte? (b : UInt8) : Option Priority :=
  if b = 0x00 then some low else if b = 0x01 then some high else none

@[simp] theorem ofByte?_byte (p : Priority) : ofByte? p.byte = some p := by
  cases p <;> decide

end Priority

/-! ### Handshakes -/

/-- What a handshake acknowledges. -/
inductive HandshakeKind where
  /-- An event or a command. -/
  | command
  /-- A packet of data. -/
  | data
  /-- Something this library has no name for. -/
  | other (code : UInt8)
deriving DecidableEq, Repr

namespace HandshakeKind

/-- The kind that a byte stands for. -/
def ofByte (b : UInt8) : HandshakeKind :=
  if b = 0x01 then command else if b = 0x02 then data else other b

/-- The byte that stands for a kind. -/
def byte : HandshakeKind → UInt8
  | command => 0x01
  | data => 0x02
  | other code => code

/-- The byte of a kind that was read is the byte it was read from. -/
@[simp] theorem byte_ofByte (b : UInt8) : (ofByte b).byte = b := by
  unfold ofByte
  split
  · next h => simp [byte, h]
  · split
    · next h => simp [byte, h]
    · rfl

/-- The kind as it is written in a text about a reply. -/
def describe : HandshakeKind → String
  | command => "Command"
  | data => "Data"
  | other code => s!"Other({code.toNat})"

end HandshakeKind

/-! ### Values and requests -/

/-- One packet of a value.  A packet that answers a request names the requested
path as its source path. -/
structure Packet where
  /-- Where the value goes. -/
  targetPath : Path
  /-- Where the value comes from. -/
  sourcePath : Path
  /-- The place of this packet in the transfer, from zero. -/
  number : UInt16
  /-- How many packets the transfer has. -/
  count : UInt16
  /-- The bytes of the value in this packet. -/
  data : Bytes
deriving DecidableEq

/-- The number after a packet number; the largest number stays. -/
def nextNumber (n : UInt16) : UInt16 := if n = 65535 then n else n + 1

namespace Packet

/-- Whether the packet opens a transfer. -/
def isFirst (p : Packet) : Bool := p.number == 0

/-- Whether the packet ends a transfer of its packet count. -/
def isLast (p : Packet) : Bool := nextNumber p.number == p.count

/-- The path that a received value belongs to: an answer names it as the source
path, anything else leaves that empty and names it as the target path. -/
def valuePath (p : Packet) : Path := if p.sourcePath.isRoot then p.targetPath else p.sourcePath

end Packet

/-- A request for the value at a path. -/
structure DataRequest where
  /-- The path whose value is asked for. -/
  targetPath : Path
  /-- Where the answer is to go. -/
  sourcePath : Path
  /-- What is asked; `0` asks for the stored value. -/
  code : UInt8
deriving DecidableEq

/-- The request for the stored value at a path. -/
def DataRequest.stored (path : Path) : DataRequest := ⟨path, Path.root, 0⟩

/-! ### Events -/

/-- A key press or a command. -/
structure Event where
  /-- The path it is delivered to. -/
  targetPath : Path
  /-- The path it comes from. -/
  sourcePath : Path
  /-- What happened. -/
  id : UInt16
  /-- The first data word: the time stamp of a key press. -/
  data1 : UInt16
  /-- The second data word: the argument, such as a source or a volume. -/
  data2 : UInt16
  /-- The priority byte. -/
  data3 : UInt8
deriving DecidableEq

/-- The event with the given identifier, without data words. -/
def Event.plain (path : Path) (id : UInt16) (priority : Priority) : Event :=
  ⟨path, Path.root, id, 0, 0, priority.byte⟩

/-! ### Messages -/

/-- What one device tells another. -/
inductive Message where
  /-- One packet of a value. -/
  | setData (packet : Packet)
  /-- A request for a value. -/
  | requestData (request : DataRequest)
  /-- An acknowledgement. -/
  | handshake (kind : HandshakeKind)
  /-- A key press or command. -/
  | event (event : Event)
  /-- A message of any type, with its body as it is. -/
  | unknown (code : UInt8) (body : Bytes)
deriving DecidableEq

namespace Message

/-- The interpreted type of a message, if it has one. -/
def type? : Message → Option MessageType
  | setData _ => some .setData
  | requestData _ => some .requestData
  | handshake _ => some .handshake
  | event _ => some .event
  | unknown _ _ => none

/-- The message type byte of a message. -/
def typeByte : Message → UInt8
  | setData _ => MessageType.setData.byte
  | requestData _ => MessageType.requestData.byte
  | handshake _ => MessageType.handshake.byte
  | event _ => MessageType.event.byte
  | unknown code _ => code

/-- The name of a message's type. -/
def name (m : Message) : String :=
  match m.type? with
  | some type => type.name
  | none => "Unknown"

/-- The path inside the target device that a message is for, if it names one. -/
def targetPath? : Message → Option Path
  | setData packet => some packet.targetPath
  | requestData request => some request.targetPath
  | .event e => some e.targetPath
  | handshake _ => none
  | unknown _ _ => none

end Message

/-- A message and the addresses it travels between. -/
structure Envelope where
  /-- The device the message is for. -/
  target : Address
  /-- The device it comes from. -/
  source : Address
  /-- The message. -/
  message : Message
deriving DecidableEq

end ZoneBus
