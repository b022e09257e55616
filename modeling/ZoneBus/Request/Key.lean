import ZoneBus.Message

/-!
# What answers a request

Frames carry no numbers that would tie an answer to a request.  An answer is
recognised by who sent it and what it is: an event is answered by a handshake of
its target, unless that handshake acknowledges data; a request for a value by a
whole value at the requested path of its target.  Nothing else has an answer,
and nothing sent to a broadcast address has one.

## Main definitions

* `ReplyKey` — who answers, and with what.
* `ReplyKey.ofRequest?` — the key a request waits for.
* `ReplyKey.ofHandshake?` — the key a handshake answers.
-/

namespace ZoneBus

/-- Who answers a request, and with what. -/
inductive ReplyKey where
  /-- A handshake of the peer. -/
  | handshake (peer : Address)
  /-- A whole value at a path of the peer. -/
  | data (peer : Address) (path : Path)
deriving DecidableEq

namespace ReplyKey

/-- The device that answers. -/
def peer : ReplyKey → Address
  | handshake peer => peer
  | data peer _ => peer

/-- The key that a message to a device waits for, if an answer belongs to it. -/
def ofRequest? (target : Address) (message : Message) : Option ReplyKey :=
  if target.isBroadcast then none
  else
    match message with
    | .event _ => some (handshake target)
    | .requestData request => some (data target request.targetPath)
    | _ => none

/-- The key that a handshake from a device answers, if any. -/
def ofHandshake? (peer : Address) (kind : HandshakeKind) : Option ReplyKey :=
  if kind = .data then none else some (handshake peer)

end ReplyKey

end ZoneBus
