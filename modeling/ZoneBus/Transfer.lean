import ZoneBus.Message

/-!
# Transfers

A value is sent as a transfer of numbered packets with at most 64 bytes each.

## Main definitions

* `chunks` — a value in pieces of the packet size.
* `transfer` — the packets of a value.
-/

namespace ZoneBus

/-- The most data bytes of one packet of a transfer. -/
def packetSize : Nat := 64

/-- Bytes in pieces of the packet size; only the last piece may be shorter.  No
bytes make one empty piece. -/
def chunks (data : Bytes) : List Bytes :=
  match _h : data.drop packetSize with
  | [] => [data]
  | b :: rest => data.take packetSize :: chunks (b :: rest)
termination_by data.length
decreasing_by
  have := congrArg List.length _h
  simp only [List.length_drop, packetSize, List.length_cons] at this
  simp only [List.length_cons]; omega

/-- The packets of a value, numbered from zero.  Refuses a value that needs more
packets than can be numbered. -/
def transfer (targetPath sourcePath : Path) (data : Bytes) : Except ProtocolError (List Packet) :=
  let pieces := chunks data
  let count := pieces.length
  if count ≤ maxPacketCount then
    .ok (pieces.mapIdx fun i piece =>
      ⟨targetPath, sourcePath, UInt16.ofNat i, UInt16.ofNat count, piece⟩)
  else .error (.malformedPayload (.tooManyPackets data.length count))

end ZoneBus
