import ZoneBus.Settings
import ZoneBus.Toml.Document

/-!
# Settings from a document

Every section is a table; a table may also be given as the array of its fields in
order.  What is left out has its default, only an address must be complete.  Fields
of unknown names are ignored.  A value of the wrong kind, or out of range, spoils
the whole document.

## Main definitions

* `Reading` — how freely a structure may be written.
* `Reading.fields` — the fields that an item gives.
* `Reading.settings` — the settings that an item gives.
* `Settings.ofText?` — the settings in the text of a document.
-/

namespace ZoneBus

open Toml

/-- How freely a structure may be written. -/
structure Reading where
  /-- Whether an array may hold more than there are fields. -/
  surplus : Bool
  /-- Whether a choice may be written as a table with nothing under its name. -/
  tableChoice : Bool

namespace Reading

/-- How a document may be written. -/
def document : Reading := ⟨true, true⟩

/-- How a structure may be written where nothing is forgiven. -/
def exact : Reading := ⟨false, false⟩

/-- The fields of an array of items. -/
def fieldsInOrder (r : Reading) (names : List Key) (items : List Item) :
    Option (List (Option Item)) :=
  if r.surplus || decide (items.length ≤ names.length) then
    some ((List.range names.length).map fun i => items[i]?)
  else none

/-- The fields with the given names that an item gives; nothing when the item is no
structure.  A moment is a structure without any of them. -/
def fields (r : Reading) (names : List Key) : Item → Option (List (Option Item))
  | .table _ es => some (names.map (Entries.find? es))
  | .array items => r.fieldsInOrder names items
  | .tables elements => r.fieldsInOrder names (elements.map (.table .header))
  | .moment => some (names.map fun _ => none)
  | _ => none

/-- The value of a field, or its default when it was left out. -/
def orDefault {α : Type} (read : Item → Option α) (d : α) : Option Item → Option α
  | none => some d
  | some i => read i

/-- A text. -/
def string : Item → Option String
  | .string s => some s
  | _ => none

/-- A truth value. -/
def boolean : Item → Option Bool
  | .boolean b => some b
  | _ => none

/-- A whole number below a bound. -/
def natural (bound : Nat) : Item → Option Nat
  | .integer n => if 0 ≤ n ∧ n < bound then some n.toNat else none
  | _ => none

/-- A byte. -/
def byte (i : Item) : Option UInt8 := (natural 256 i).map UInt8.ofNat

/-- A word of sixteen bits. -/
def word16 (i : Item) : Option UInt16 := (natural 65536 i).map UInt16.ofNat

/-- A word of thirty-two bits. -/
def word32 (i : Item) : Option UInt32 := (natural 0x100000000 i).map UInt32.ofNat

/-- A word of sixty-four bits. -/
def word64 (i : Item) : Option UInt64 := (natural 0x10000000000000000 i).map UInt64.ofNat

/-- The kind with a name. -/
def transportNamed (name : String) : Option TransportKind :=
  if name = "tcp" then some .tcp else if name = "serial" then some .serial else none

/-- Whether an item holds nothing. -/
def isNothing : Item → Bool
  | .table _ es => es.isEmpty
  | .array items => items.isEmpty
  | .tables elements => elements.isEmpty
  | _ => false

/-- A kind of transport. -/
def transport (r : Reading) : Item → Option TransportKind
  | .string name => transportNamed name
  | .table _ [(name, i)] => if r.tableChoice && isNothing i then transportNamed name else none
  | _ => none

/-- A complete address. -/
def address (r : Reading) (i : Item) : Option Address := do
  match ← r.fields ["controller_id", "zone_id", "keypad_id"] i with
  | [some controller, some zone, some keypad] =>
    return ⟨← byte controller, ← byte zone, ← byte keypad⟩
  | _ => none

/-- The section about the client. -/
def client (r : Reading) (i : Item) : Option ClientSettings := do
  let d : ClientSettings := {}
  match ← r.fields ["log_level", "local_address"] i with
  | [level, addr] =>
    return { logLevel := ← orDefault string d.logLevel level
             localAddress := ← orDefault r.address d.localAddress addr }
  | _ => none

/-- The section about the connection. -/
def connection (r : Reading) (i : Item) : Option ConnectionSettings := do
  let d : ConnectionSettings := {}
  match ← r.fields ["transport", "host", "port", "connect_timeout_ms", "serial_port",
      "baud_rate"] i with
  | [kind, host, port, timeout, device, speed] =>
    return { transport := ← orDefault r.transport d.transport kind
             host := ← orDefault string d.host host
             port := ← orDefault word16 d.port port
             connectTimeout := ← orDefault word64 d.connectTimeout timeout
             serialPort := ← orDefault string d.serialPort device
             baudRate := ← orDefault word32 d.baudRate speed }
  | _ => none

/-- The section about the session. -/
def session (r : Reading) (i : Item) : Option SessionSettings := do
  let d : SessionSettings := {}
  match ← r.fields ["request_timeout_ms", "retries", "scan_interval_ms", "acknowledge_data",
      "event_capacity"] i with
  | [timeout, retries, interval, acknowledge, capacity] =>
    return { requestTimeout := ← orDefault word64 d.requestTimeout timeout
             retries := ← orDefault word32 d.retries retries
             scanInterval := ← orDefault word64 d.scanInterval interval
             acknowledgeData := ← orDefault boolean d.acknowledgeData acknowledge
             eventCapacity := ← orDefault word64 d.eventCapacity capacity }
  | _ => none

/-- All settings. -/
def settings (r : Reading) (i : Item) : Option Settings := do
  let d : Settings := {}
  match ← r.fields ["client", "connection", "session"] i with
  | [c, l, s] =>
    return { client := ← orDefault r.client d.client c
             connection := ← orDefault r.connection d.connection l
             session := ← orDefault r.session d.session s }
  | _ => none

end Reading

/-- The settings in the text of a document. -/
def Settings.ofText? (text : List Char) : Option Settings := do
  let es ← Toml.parse text
  Reading.document.settings (.table .header es)

end ZoneBus
