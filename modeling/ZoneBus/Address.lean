import ZoneBus.Bytes

/-!
# Device addresses

Every participant on the bus is named by a controller, a zone and a keypad.  A
few values are reserved: keypad `0x7F` is the controller itself, keypad `0x70`
an external host, and controller `0x7F` stands for every controller at once.

## Main definitions

* `Address` — the address of one participant, or of all controllers.
* `Address.controllerAt`, `Address.external`, `Address.allControllers` — the
  addresses with a name of their own.
* `Address.isBroadcast` — whether an address reaches more than one device.
* `Address.bytes`, `Address.ofBytes?` — the three bytes of an address and back.
* `Address.display` — the short text that names an address to people.
-/

namespace ZoneBus

/-- The keypad number of a controller itself. -/
def controllerKeypad : UInt8 := 0x7F

/-- The keypad number of an external host. -/
def externalKeypad : UInt8 := 0x70

/-- The controller number that stands for every controller. -/
def everyController : UInt8 := 0x7F

/-- The address of a participant on the bus. -/
structure Address where
  /-- The controller, or `everyController`. -/
  controller : UInt8
  /-- The zone of the controller; `0` where no zone is meant. -/
  zone : UInt8
  /-- The keypad in the zone, or one of the reserved keypad numbers. -/
  keypad : UInt8
deriving DecidableEq, Repr

namespace Address

/-- The controller with the given number. -/
def controllerAt (n : UInt8) : Address := ⟨n, 0, controllerKeypad⟩

/-- The first controller of the bus. -/
def rootController : Address := controllerAt 0

/-- An external host. -/
def external : Address := ⟨0, 0, externalKeypad⟩

/-- Every controller on the bus. -/
def allControllers : Address := ⟨everyController, 0, controllerKeypad⟩

/-- Whether the address is that of a controller, not of a keypad. -/
def isController (a : Address) : Bool := a.keypad == controllerKeypad

/-- Whether the keypad number is the one of an external host. -/
def isExternal (a : Address) : Bool := a.keypad == externalKeypad

/-- Whether the address reaches every controller; no single reply comes back. -/
def isBroadcast (a : Address) : Bool := a.controller == everyController

/-- The three bytes of an address. -/
def bytes (a : Address) : Bytes := [a.controller, a.zone, a.keypad]

/-- The address in the first three bytes, or nothing when there are fewer. -/
def ofBytes? : Bytes → Option Address
  | controller :: zone :: keypad :: _ => some ⟨controller, zone, keypad⟩
  | _ => none

/-- Addresses are ordered by controller, then zone, then keypad. -/
def le (a b : Address) : Bool :=
  if a.controller ≠ b.controller then a.controller < b.controller
  else if a.zone ≠ b.zone then a.zone < b.zone
  else a.keypad ≤ b.keypad

/-- The short text that names an address: broadcast first, then the external
host, then a bare controller, and all three numbers otherwise. -/
def display (a : Address) : String :=
  if a.isBroadcast then "all-controllers"
  else if a = external then "external"
  else if a.isController then s!"c{a.controller.toNat}"
  else s!"c{a.controller.toNat}.z{a.zone.toNat}.k{a.keypad.toNat}"

@[simp] theorem length_bytes (a : Address) : a.bytes.length = 3 := rfl

/-- An address is read back from its bytes, whatever follows them. -/
@[simp] theorem ofBytes?_bytes_append (a : Address) (rest : Bytes) :
    ofBytes? (a.bytes ++ rest) = some a := rfl

/-- Three bytes are enough for an address, and fewer are not. -/
theorem isSome_ofBytes?_iff (bs : Bytes) : (ofBytes? bs).isSome ↔ 3 ≤ bs.length := by
  match bs with
  | [] => simp [ofBytes?]
  | [_] => simp [ofBytes?]
  | [_, _] => simp [ofBytes?]
  | _ :: _ :: _ :: _ => simp [ofBytes?]

end Address

end ZoneBus
