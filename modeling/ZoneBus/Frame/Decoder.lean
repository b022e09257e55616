import ZoneBus.Frame

/-!
# Finding frames in a stream

Bytes arrive in chunks of any size.  The scanner looks at them one by one: it
skips what stands outside frames, collects the content of a frame with its
escapes undone, and gives one result when a frame ends, whether well or badly.
After every result it is ready for the next frame.

## Main definitions

* `ScanState` — between frames, or inside one with the content so far.
* `Scanner`, `Scanner.step` — the scanner and what one byte does to it.
* `Scanner.next` — scanning up to and including the byte that gives a result.
* `Scanner.feed` — scanning all of some bytes, with every result on the way.
* `Decoder` — a scanner and the bytes it has not looked at yet.
* `Decoder.extend`, `Decoder.next`, `Decoder.drain`, `Decoder.reset` — its
  operations.
* `Frame.decode` — the first frame of some bytes.

## Main results

* `Scanner.length_next_lt` — a result uses up at least one byte.
-/

namespace ZoneBus

/-- Where the scanner stands. -/
inductive ScanState where
  /-- Between frames. -/
  | outside
  /-- Inside a frame: its content so far, and whether an escape marker came last. -/
  | inside (content : Bytes) (escaped : Bool)
deriving DecidableEq

/-- What comes out of a stream: a frame, or why one was dropped. -/
abbrev FrameResult := Except ProtocolError Frame

/-- The state of scanning a stream. -/
structure Scanner where
  /-- Where the scanner stands. -/
  state : ScanState
  /-- How many bytes stood outside frames. -/
  skipped : Nat
deriving DecidableEq

namespace Scanner

/-- A scanner that has seen nothing. -/
def fresh : Scanner := ⟨.outside, 0⟩

/-- Takes one more content byte, or drops the frame when it grows too long. -/
def collect (s : Scanner) (content : Bytes) : Scanner × Option FrameResult :=
  if content.length > maxFrameLength then
    ({ s with state := .outside }, some (.error (.malformedFrame .oversized)))
  else ({ s with state := .inside content false }, none)

/-- What one byte does.  A start marker always begins a frame, also inside one. -/
def step (s : Scanner) (b : UInt8) : Scanner × Option FrameResult :=
  match s.state with
  | .outside =>
    if b = startMarker then ({ s with state := .inside [] false }, none)
    else ({ s with skipped := s.skipped + 1 }, none)
  | .inside content escaped =>
    if b = startMarker then
      ({ s with state := .inside [] false },
        some (.error (.malformedFrame (.interrupted content.length))))
    else if b = endMarker then
      ({ s with state := .outside },
        some (if escaped then .error (.malformedFrame .danglingEscape)
          else Frame.ofContent content))
    else if escaped then s.collect (content ++ [~~~b])
    else if b = escapeMarker then ({ s with state := .inside content true }, none)
    else s.collect (content ++ [b])

/-- Scans up to and including the byte that gives a result; the bytes after it
are left. -/
def next (s : Scanner) : Bytes → Option FrameResult × Scanner × Bytes
  | [] => (none, s, [])
  | b :: rest =>
    match s.step b with
    | (s', some r) => (some r, s', rest)
    | (s', none) => s'.next rest

/-- Scans all bytes and collects the results. -/
def feed (s : Scanner) : Bytes → List FrameResult × Scanner
  | [] => ([], s)
  | b :: rest =>
    let (s', r) := s.step b
    let (rs, s'') := s'.feed rest
    (r.toList ++ rs, s'')

/-- A result uses up at least one byte. -/
theorem length_next_lt {s s' : Scanner} {bs rest : Bytes} {r : FrameResult}
    (h : s.next bs = (some r, s', rest)) : rest.length < bs.length := by
  induction bs generalizing s with
  | nil => simp [next] at h
  | cons b bs ih =>
    unfold next at h
    split at h
    · cases h; simp
    · have := ih h; simp only [List.length_cons]; omega

end Scanner

/-- A scanner and the bytes it has not looked at yet. -/
structure Decoder where
  /-- The scanner. -/
  scanner : Scanner
  /-- Received bytes, not looked at yet. -/
  unread : Bytes
deriving DecidableEq

namespace Decoder

/-- A decoder that has received nothing. -/
def fresh : Decoder := ⟨Scanner.fresh, []⟩

/-- Receives more bytes. -/
def extend (d : Decoder) (bs : Bytes) : Decoder := { d with unread := d.unread ++ bs }

/-- The next result, or nothing when all received bytes have been looked at. -/
def next (d : Decoder) : Option FrameResult × Decoder :=
  match d.scanner.next d.unread with
  | (r, s, rest) => (r, ⟨s, rest⟩)

/-- All results that the received bytes give. -/
def drain (d : Decoder) : List FrameResult × Decoder :=
  match _h : d.scanner.next d.unread with
  | (none, s, rest) => ([], ⟨s, rest⟩)
  | (some r, s, rest) =>
    let (rs, d') := drain ⟨s, rest⟩
    (r :: rs, d')
termination_by d.unread.length
decreasing_by exact Scanner.length_next_lt _h

/-- Forgets the frame in progress and all bytes not looked at; the number of
skipped bytes stays. -/
def reset (d : Decoder) : Decoder := ⟨{ d.scanner with state := .outside }, []⟩

/-- How many received bytes have not been looked at. -/
def buffered (d : Decoder) : Nat := d.unread.length

/-- Whether a frame has begun and not ended. -/
def inFrame (d : Decoder) : Bool :=
  match d.scanner.state with
  | .outside => false
  | .inside _ _ => true

/-- How many bytes stood outside frames. -/
def skipped (d : Decoder) : Nat := d.scanner.skipped

end Decoder

/-- The first frame of some bytes; noise before it and everything after it is
ignored. -/
def Frame.decode (bs : Bytes) : Except ProtocolError Frame :=
  match (Scanner.fresh.next bs).1 with
  | some r => r
  | none => .error (.malformedFrame .incomplete)

end ZoneBus
