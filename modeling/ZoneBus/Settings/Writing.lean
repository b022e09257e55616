import ZoneBus.Settings
import ZoneBus.Toml.Written

/-!
# Settings as a document

All settings are written, also those that have their default.

## Main definitions

* `Settings.sections` — the sections of the document.
* `Settings.toText?` — the text of the document; nothing when a number is too large
  for it.
-/

namespace ZoneBus

namespace Settings

/-- The sections of the document. -/
def sections (s : Settings) : List Toml.Section :=
  [ ⟨"client", [("log_level", .string s.client.logLevel)]⟩,
    ⟨"client.local_address",
      [("controller_id", .natural s.client.localAddress.controller.toNat),
        ("zone_id", .natural s.client.localAddress.zone.toNat),
        ("keypad_id", .natural s.client.localAddress.keypad.toNat)]⟩,
    ⟨"connection",
      [("transport", .string s.connection.transport.name),
        ("host", .string s.connection.host),
        ("port", .natural s.connection.port.toNat),
        ("connect_timeout_ms", .natural s.connection.connectTimeout.toNat),
        ("serial_port", .string s.connection.serialPort),
        ("baud_rate", .natural s.connection.baudRate.toNat)]⟩,
    ⟨"session",
      [("request_timeout_ms", .natural s.session.requestTimeout.toNat),
        ("retries", .natural s.session.retries.toNat),
        ("scan_interval_ms", .natural s.session.scanInterval.toNat),
        ("acknowledge_data", .boolean s.session.acknowledgeData),
        ("event_capacity", .natural s.session.eventCapacity.toNat)]⟩ ]

/-- The text of the document. -/
def toText? (s : Settings) : Option (List Char) := Toml.writeSections? s.sections

end Settings

end ZoneBus
