import ZoneBus.Session.Basic

/-!
# Settings

What a user may settle about the client: who it is on the bus, how the bus is
reached, and how requests are paced.  Everything has a default, so settings can be
given in part.

## Main definitions

* `Settings`, with `ClientSettings`, `ConnectionSettings` and `SessionSettings` —
  the settings by section.
* `TransportKind` — how the bus is reached.
* `ConnectionSettings.endpoint` — the name of the far end.
* `Settings.sessionConfig` — what a session is told.
-/

namespace ZoneBus

/-- How the bus is reached. -/
inductive TransportKind where
  /-- Over the network. -/
  | tcp
  /-- Over a serial line. -/
  | serial
deriving DecidableEq, Repr

/-- The name of a kind. -/
def TransportKind.name : TransportKind → String
  | tcp => "tcp"
  | serial => "serial"

/-- Who the client is, and what it writes to its log. -/
structure ClientSettings where
  /-- How much is written to the log. -/
  logLevel : String := "info"
  /-- The address of the client on the bus. -/
  localAddress : Address := .external
deriving DecidableEq

/-- How the bus is reached.  Only what belongs to the chosen kind is used. -/
structure ConnectionSettings where
  /-- The chosen kind. -/
  transport : TransportKind := .tcp
  /-- The host on the network. -/
  host : String := "127.0.0.1"
  /-- The port of the host. -/
  port : UInt16 := 4001
  /-- How long reaching the host may take, in milliseconds. -/
  connectTimeout : UInt64 := 3000
  /-- The serial device. -/
  serialPort : String := "/dev/ttyUSB0"
  /-- The speed of the serial line. -/
  baudRate : UInt32 := 19200
deriving DecidableEq

/-- How requests are paced. -/
structure SessionSettings where
  /-- How long an answer may take, in milliseconds. -/
  requestTimeout : UInt64 := 500
  /-- How often a message is sent again. -/
  retries : UInt32 := 3
  /-- The time from one look at the deadlines to the next, in milliseconds. -/
  scanInterval : UInt64 := 25
  /-- Whether packets of values are acknowledged. -/
  acknowledgeData : Bool := true
  /-- How many notices an observer may fall behind. -/
  eventCapacity : UInt64 := 256
deriving DecidableEq

/-- All settings. -/
structure Settings where
  /-- Who the client is. -/
  client : ClientSettings := {}
  /-- How the bus is reached. -/
  connection : ConnectionSettings := {}
  /-- How requests are paced. -/
  session : SessionSettings := {}
deriving DecidableEq

/-- The name of the far end. -/
def ConnectionSettings.endpoint (c : ConnectionSettings) : String :=
  match c.transport with
  | .tcp => s!"tcp://{c.host}:{c.port.toNat}"
  | .serial => s!"serial://{c.serialPort}@{c.baudRate.toNat}"

/-- What a session is told. -/
def Settings.sessionConfig (s : Settings) : SessionConfig :=
  SessionConfig.sanitized
    { localAddress := s.client.localAddress
      requestTimeout := s.session.requestTimeout.toNat
      retries := s.session.retries
      scanInterval := s.session.scanInterval.toNat
      acknowledgeData := s.session.acknowledgeData
      eventCapacity := s.session.eventCapacity.toNat }

end ZoneBus
