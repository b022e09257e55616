import ZoneBus.Directory
import ZoneBus.Reassembly.Buffer

/-!
# The values of every device

The buffers of a device are filed under their paths, and the devices under their
addresses.  A device is filed on first use.  A path is filed when a transfer
begins there: any other operation on a path that is not filed answers as a fresh
buffer would, and files nothing.

## Main definitions

* `DeviceBuffers` — the buffers of one device, with `begin`, `write`, `finish`
  and `writePacket` at a path.
* `BufferStore` — the buffers of every device.
* `BufferStore.onDevice` — an operation on one device, filed on first use.
-/

namespace ZoneBus

/-- The buffers of one device. -/
abbrev DeviceBuffers := Directory Path Buffer

namespace DeviceBuffers

/-- The buffer at a path, or a fresh one. -/
def bufferAt (d : DeviceBuffers) (path : Path) : Buffer := (d.find? path).getD (.fresh path)

/-- An operation on a buffer that must be filed already. -/
def onFiled {α : Type} (d : DeviceBuffers) (path : Path)
    (f : Buffer → Except BufferError α × Buffer) : Except BufferError α × DeviceBuffers :=
  match d.find? path with
  | none => (.error (.noActiveWrite path), d)
  | some b =>
    let (r, b') := f b
    (r, d.put path b')

/-- Opens a transfer at a path. -/
def begin (d : DeviceBuffers) (path : Path) : DeviceBuffers :=
  d.put path (d.bufferAt path).begin

/-- Adds a fragment to the open transfer at a path. -/
def write (d : DeviceBuffers) (path : Path) (fragment : Bytes) :
    Except BufferError Unit × DeviceBuffers :=
  d.onFiled path fun b => b.write fragment

/-- Closes the open transfer at a path and publishes its value. -/
def finish (d : DeviceBuffers) (now : Instant) (path : Path) :
    Except BufferError Bytes × DeviceBuffers :=
  d.onFiled path fun b => b.finish now

/-- Takes a numbered packet for a path. -/
def writePacket (d : DeviceBuffers) (now : Instant) (path : Path) (number count : UInt16)
    (fragment : Bytes) : Except BufferError (Option Bytes) × DeviceBuffers :=
  if number = 0 then
    let (r, b) := (d.bufferAt path).writePacket now number count fragment
    (r, d.put path b)
  else d.onFiled path fun b => b.writePacket now number count fragment

/-- The last value published at a path. -/
def read (d : DeviceBuffers) (path : Path) : Option Bytes := (d.find? path).bind Buffer.read

end DeviceBuffers

/-- The buffers of every device. -/
abbrev BufferStore := Directory Address DeviceBuffers

namespace BufferStore

/-- The buffers of a device; none when it was never used. -/
def device (s : BufferStore) (a : Address) : DeviceBuffers := (s.find? a).getD .empty

/-- An operation on the buffers of a device, which is filed on first use. -/
def onDevice {α : Type} (s : BufferStore) (a : Address)
    (f : DeviceBuffers → α × DeviceBuffers) : α × BufferStore :=
  let (r, d) := f (s.device a)
  (r, s.put a d)

/-- Takes a numbered packet from a device for a path. -/
def writePacket (s : BufferStore) (now : Instant) (a : Address) (path : Path)
    (number count : UInt16) (fragment : Bytes) :
    Except BufferError (Option Bytes) × BufferStore :=
  s.onDevice a fun d => d.writePacket now path number count fragment

/-- The last value published at a path of a device. -/
def read (s : BufferStore) (a : Address) (path : Path) : Option Bytes :=
  (s.find? a).bind fun d => DeviceBuffers.read d path

/-- Forgets a path of a device; tells whether it was filed. -/
def remove (s : BufferStore) (a : Address) (path : Path) : Bool × BufferStore :=
  match s.find? a with
  | none => (false, s)
  | some d => (d.contains path, s.put a (d.erase path))

/-- Forgets a device; tells whether it was filed. -/
def removeDevice (s : BufferStore) (a : Address) : Bool × BufferStore :=
  (s.contains a, s.erase a)

/-- Forgets everything. -/
def clear (_ : BufferStore) : BufferStore := .empty

end BufferStore

end ZoneBus
