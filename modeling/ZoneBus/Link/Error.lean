/-!
# Why a link failed

A link is the byte stream to the bus.  It can fail to open, be used while it is
not open, be ended by the other side, or report an error of its own.

## Main definitions

* `LinkError` — every cause.
* `LinkError.message` — the text of a cause.
-/

namespace ZoneBus

/-- Why an operation on a link failed. -/
inductive LinkError where
  /-- The transport to the endpoint could not be opened. -/
  | openFailed (endpoint : String) (reason : String)
  /-- The link is not open. -/
  | notOpen
  /-- The other side ended the stream. -/
  | closed
  /-- Reading or writing failed. -/
  | io (reason : String)
deriving DecidableEq, Repr

/-- The text of a cause. -/
def LinkError.message : LinkError → String
  | openFailed endpoint reason => s!"failed to open {endpoint}: {reason}"
  | notOpen => "connection is not open"
  | closed => "connection closed by peer"
  | io reason => s!"connection I/O error: {reason}"

end ZoneBus
