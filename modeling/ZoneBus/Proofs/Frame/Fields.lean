import ZoneBus.Proofs.Frame.Results
import ZoneBus.Proofs.Frame.Streams
import ZoneBus.Proofs.Message.Places
import ZoneBus.Proofs.Runs

/-!
# A decoder in separate fields

A decoder can be kept in fields that nothing ties together: the bytes not looked at, the bytes
collected so far, where it stands, and how many bytes it skipped.  Its calls set these fields
one by one, and content is taken apart by places.  Still the fields always fit: there is
never more collected than a frame may have, and nothing outside frames.  So every place that
content is taken apart at is within it, and such a decoder answers every call like one whose
state has no other content than that of the frame that it is in.

## Main definitions

* `Frame.ofPlaces` — the frame in content, read by places.
* `FieldDecoder`, with `extend`, `next` and `reset` — the fields, and the calls on them.
* `Decoder.fields` — the fields of a decoder.

## Main results

* `Frame.ofPlaces_eq` — content is taken apart within bounds.
* `FieldDecoder.call_fields` — a call is answered the same, and the fields go on fitting.
* `FieldDecoder.keeps_within_bounds` — **nothing is ever out of bounds, whatever is received
  and asked.**
-/

namespace ZoneBus

/-! ### Content -/

/-- Whether a cause lies in a frame as a whole. -/
def ProtocolError.isAboutFrame : ProtocolError → Bool
  | checksum _ _ => true
  | malformedFrame _ => true
  | _ => false

/-- The address in the first three bytes. -/
def Address.atStart (bs : Bytes) : Except ProtocolError Address :=
  match Address.ofBytes? bs with
  | some address => .ok address
  | none => .error (.malformedAddress bs.length)

namespace Frame

/-- The frame in logical bytes followed by their checksum, read by places. -/
def ofPlaces (content : Bytes) : Bounded Frame := do
  if content.length < minFrameLength then
    throw (.malformedFrame (.tooShort content.length))
  let (covered, transmitted) ← splitAt? content (← sub? content.length 1)
  let expected := checksum covered
  let actual ← byteAt? transmitted 0
  if actual ≠ expected then
    throw (.checksum expected actual)
  let target ← Address.atStart (← slice? covered 0 3)
  let source ← Address.atStart (← slice? covered 3 6)
  let type ← byteAt? covered 6
  let body ← slice? covered 7 covered.length
  return ⟨target, source, type, body⟩

/-- The fields of a frame stand at their places in its logical bytes. -/
theorem slices_logicalBytes (f : Frame) :
    slice? f.logicalBytes 0 3 = some f.target.bytes ∧
      slice? f.logicalBytes 3 6 = some f.source.bytes ∧
      byteAt? f.logicalBytes 6 = some f.type ∧
      slice? f.logicalBytes 7 f.logicalBytes.length = some f.body := by
  have hlength := length_logicalBytes f
  refine ⟨?_, ?_, rfl, ?_⟩
  · rw [slice?_take (by omega)]
    rfl
  · rw [slice?, if_pos ⟨by omega, by omega⟩]
    rfl
  · rw [slice?_drop (by omega)]
    rfl

/-- The logical bytes of a frame, and one more, are taken apart within bounds. -/
theorem ofPlaces_logicalBytes (f : Frame) (last : UInt8) :
    (ofPlaces (f.logicalBytes ++ [last])).run =
      some (if last ≠ checksum f.logicalBytes then
        .error (.checksum (checksum f.logicalBytes) last) else .ok f) := by
  have hlength : (f.logicalBytes ++ [last]).length = f.logicalBytes.length + 1 :=
    List.length_append
  have hlong : ¬(f.logicalBytes ++ [last]).length < minFrameLength := by
    rw [hlength, length_logicalBytes, minFrameLength]
    omega
  obtain ⟨htarget, hsource, htype, hbody⟩ := slices_logicalBytes f
  rw [ofPlaces, if_neg hlong, hlength, sub?_of_le (Nat.le_add_left 1 _), liftM_some_bind,
    Nat.add_sub_cancel, splitAt?_concat, liftM_some_bind]
  dsimp only
  rw [byteAt?, List.getElem?_cons_zero, liftM_some_bind]
  by_cases hsum : last ≠ checksum f.logicalBytes
  · rw [if_pos hsum, if_pos hsum]
    rfl
  · rw [if_neg hsum, if_neg hsum, htarget, hsource, htype, hbody]
    rfl

/-- **Content is taken apart within bounds**, and where it is refused, the cause lies in the
frame as a whole. -/
theorem ofPlaces_eq (content : Bytes) :
    (ofPlaces content).run = some (ofContent content) ∧
      ∀ e, ofContent content = .error e → e.isAboutFrame = true := by
  obtain hshort | ⟨f, last, rfl⟩ := content_cases content
  · rw [ofPlaces, if_pos hshort, ofContent, if_pos hshort]
    exact ⟨rfl, fun _ h => by cases h; rfl⟩
  · rw [ofPlaces_logicalBytes]
    by_cases hsum : last = checksum f.logicalBytes
    · have hok : ofContent (f.logicalBytes ++ [last]) = .ok f := by
        rw [hsum]
        exact ofContent_content f
      rw [if_neg (not_not_intro hsum), hok]
      exact ⟨rfl, fun _ h => by cases h⟩
    · rw [if_pos hsum, ofContent_mismatch hsum]
      exact ⟨rfl, fun _ h => by cases h; rfl⟩

end Frame

/-! ### The fields and the calls on them -/

/-- Where a decoder stands that keeps its content apart. -/
inductive FieldState where
  /-- Between frames. -/
  | scanning
  /-- Inside a frame, and whether an escape marker came last. -/
  | inFrame (escaped : Bool)
deriving DecidableEq

/-- A decoder in separate fields. -/
structure FieldDecoder where
  /-- Received bytes, not looked at yet. -/
  raw : Bytes
  /-- The bytes collected so far. -/
  logical : Bytes
  /-- Where it stands. -/
  state : FieldState
  /-- How many bytes stood outside frames. -/
  skipped : Nat
deriving DecidableEq

namespace FieldDecoder

/-- A decoder that has received nothing. -/
def fresh : FieldDecoder := ⟨[], [], .scanning, 0⟩

/-- Receives more bytes. -/
def extend (d : FieldDecoder) (bs : Bytes) : FieldDecoder := { d with raw := d.raw ++ bs }

/-- Forgets the frame in progress and all bytes not looked at. -/
def reset (d : FieldDecoder) : FieldDecoder :=
  { d with raw := [], logical := [], state := .scanning }

/-- Begins to collect a frame. -/
def beginFrame (d : FieldDecoder) : FieldDecoder :=
  { d with logical := [], state := .inFrame false }

/-- Drops the frame when more is collected than it may have. -/
def checkLength (d : FieldDecoder) : Option FrameResult × FieldDecoder :=
  if d.logical.length > maxFrameLength then
    (some (.error (.malformedFrame .oversized)), { d with logical := [], state := .scanning })
  else (none, d)

/-- Looks at a byte. -/
def look (d : FieldDecoder) (b : UInt8) : Option (Option FrameResult × FieldDecoder) :=
  match d.state with
  | .scanning =>
    if b = startMarker then some (none, d.beginFrame)
    else some (none, { d with skipped := d.skipped + 1 })
  | .inFrame escaped =>
    if b = startMarker then
      some (some (.error (.malformedFrame (.interrupted d.logical.length))), d.beginFrame)
    else if b = endMarker then
      let d' := { d with logical := [], state := .scanning }
      if escaped then some (some (.error (.malformedFrame .danglingEscape)), d')
      else (Frame.ofPlaces d.logical).run.map fun result => (some result, d')
    else if escaped then
      some { d with logical := d.logical ++ [~~~b], state := .inFrame false }.checkLength
    else if b = escapeMarker then some { d with state := .inFrame true }.checkLength
    else some { d with logical := d.logical ++ [b] }.checkLength

/-- Looks at bytes one after another, up to and including the one that gives a result. -/
def lookAt (d : FieldDecoder) : Bytes → Option (Option FrameResult × FieldDecoder)
  | [] => some (none, { d with raw := [] })
  | b :: rest =>
    match { d with raw := rest }.look b with
    | none => none
    | some (some result, d') => some (some result, d')
    | some (none, d') => d'.lookAt rest

/-- The next result, or nothing when all received bytes have been looked at. -/
def next (d : FieldDecoder) : Option (Option FrameResult × FieldDecoder) := d.lookAt d.raw

end FieldDecoder

/-! ### The fields of a decoder -/

namespace Scanner

/-- The fields of a scanner, with the bytes not looked at. -/
def fields (s : Scanner) (raw : Bytes) : FieldDecoder :=
  match s.state with
  | .outside => ⟨raw, [], .scanning, s.skipped⟩
  | .inside content escaped => ⟨raw, content, .inFrame escaped, s.skipped⟩

/-- No more is collected than a frame may have. -/
def Fits (s : Scanner) : Prop :=
  ∀ content escaped, s.state = .inside content escaped → content.length ≤ maxFrameLength

theorem fits_outside (k : Nat) : Fits ⟨.outside, k⟩ := fun _ _ h => by cases h

theorem fits_inside {content : Bytes} {escaped : Bool} {k : Nat}
    (h : content.length ≤ maxFrameLength) : Fits ⟨.inside content escaped, k⟩ :=
  fun _ _ hstate => by cases hstate; exact h

theorem fields_raw (s : Scanner) (raw raw' : Bytes) :
    { s.fields raw with raw := raw' } = s.fields raw' := by
  obtain ⟨state, k⟩ := s
  cases state <;> rfl

/-- What a scanner does with a byte, kept in fields: they answer the same, the scanner goes on
fitting, and an error is about the frame as a whole. -/
structure Answers (raw : Bytes) (looked : Option (Option FrameResult × FieldDecoder))
    (stepped : Scanner × Option FrameResult) : Prop where
  /-- The fields answer the same, and are those of the scanner again. -/
  looked : looked = some (stepped.2, stepped.1.fields raw)
  /-- The scanner goes on fitting. -/
  fits : stepped.1.Fits
  /-- An error is about the frame as a whole. -/
  fault : ∀ e, stepped.2 = some (.error e) → e.isAboutFrame = true

/-- Collecting a byte. -/
theorem answers_collect (raw content : Bytes) (state : ScanState) (k : Nat) :
    Answers raw (some (FieldDecoder.checkLength ⟨raw, content, .inFrame false, k⟩))
      (collect ⟨state, k⟩ content) := by
  rw [FieldDecoder.checkLength, collect]
  split
  · exact ⟨rfl, fits_outside k, fun _ h => by cases h; rfl⟩
  · next hfew => exact ⟨rfl, fits_inside (Nat.not_lt.mp hfew), fun _ h => by cases h⟩

/-- **A byte is looked at alike.** -/
theorem answers_step {s : Scanner} (h : s.Fits) (raw : Bytes) (b : UInt8) :
    Answers raw ((s.fields raw).look b) (s.step b) := by
  obtain ⟨state, k⟩ := s
  cases state with
  | outside =>
    show Answers raw (FieldDecoder.look ⟨raw, [], .scanning, k⟩ b) _
    rw [FieldDecoder.look, step]
    dsimp only
    by_cases hstart : b = startMarker
    · rw [if_pos hstart, if_pos hstart]
      exact ⟨rfl, fits_inside (Nat.zero_le _), fun _ h => by cases h⟩
    · rw [if_neg hstart, if_neg hstart]
      exact ⟨rfl, fits_outside _, fun _ h => by cases h⟩
  | inside content escaped =>
    have hfits : content.length ≤ maxFrameLength := h content escaped rfl
    show Answers raw (FieldDecoder.look ⟨raw, content, .inFrame escaped, k⟩ b) _
    rw [FieldDecoder.look, step]
    dsimp only
    by_cases hstart : b = startMarker
    · rw [if_pos hstart, if_pos hstart]
      exact ⟨rfl, fits_inside (Nat.zero_le _), fun _ h => by cases h; rfl⟩
    rw [if_neg hstart, if_neg hstart]
    by_cases hend : b = endMarker
    · rw [if_pos hend, if_pos hend]
      cases escaped with
      | true => exact ⟨rfl, fits_outside k, fun _ h => by cases h; rfl⟩
      | false =>
        obtain ⟨hplaces, hfault⟩ := Frame.ofPlaces_eq content
        rw [hplaces]
        exact ⟨rfl, fits_outside k, fun e h => hfault e (Option.some.inj h)⟩
    rw [if_neg hend, if_neg hend]
    cases escaped with
    | true => exact answers_collect raw (content ++ [~~~b]) _ k
    | false =>
      by_cases hesc : b = escapeMarker
      · -- nothing is collected, so there is still room
        have hcheck : FieldDecoder.checkLength ⟨raw, content, .inFrame true, k⟩ =
            (none, ⟨raw, content, .inFrame true, k⟩) := if_neg (Nat.not_lt.mpr hfits)
        rw [if_pos hesc, if_pos hesc, hcheck]
        exact ⟨rfl, fits_inside hfits, fun _ h => by cases h⟩
      · rw [if_neg hesc, if_neg hesc]
        exact answers_collect raw (content ++ [b]) _ k

/-- Bytes are looked at alike, up to the one that gives a result. -/
theorem answers_next : ∀ (bs raw : Bytes) {s : Scanner}, s.Fits →
    (s.fields raw).lookAt bs =
        some ((s.next bs).1, (s.next bs).2.1.fields (s.next bs).2.2) ∧
      (s.next bs).2.1.Fits ∧ ∀ e, (s.next bs).1 = some (.error e) → e.isAboutFrame = true := by
  intro bs
  induction bs with
  | nil =>
    intro raw s h
    rw [FieldDecoder.lookAt, fields_raw, next]
    exact ⟨rfl, h, fun _ h => by cases h⟩
  | cons b rest ih =>
    intro raw s h
    obtain ⟨hlooked, hfits, hfault⟩ := answers_step h rest b
    rw [FieldDecoder.lookAt, fields_raw, hlooked, next]
    cases hstep : s.step b with
    | mk s' result =>
      rw [hstep] at hfits hfault
      cases result with
      | none => exact ih rest hfits
      | some r => exact ⟨rfl, hfits, hfault⟩

end Scanner

/-! ### Any calls -/

/-- A call of a decoder, of whichever kind. -/
inductive DecoderCall where
  /-- More bytes are received. -/
  | extend (bytes : Bytes)
  /-- The next result is asked for. -/
  | next
  /-- Everything received is forgotten. -/
  | reset
deriving DecidableEq

namespace Decoder

/-- What a call gives, and the decoder after it. -/
def call (d : Decoder) : DecoderCall → Option FrameResult × Decoder
  | .extend bytes => (none, d.extend bytes)
  | .next => d.next
  | .reset => (none, d.reset)

/-- The fields of a decoder. -/
def fields (d : Decoder) : FieldDecoder := d.scanner.fields d.unread

end Decoder

namespace FieldDecoder

/-- What a call gives, and the decoder after it, unless it steps out of bounds. -/
def call (d : FieldDecoder) : DecoderCall → Option (Option FrameResult × FieldDecoder)
  | .extend bytes => some (none, d.extend bytes)
  | .next => d.next
  | .reset => some (none, d.reset)

/-- What calls give one after another, and the decoder in the end, unless one steps out of
bounds. -/
def run (d : FieldDecoder) : List DecoderCall → Option (List (Option FrameResult) × FieldDecoder)
  | [] => some ([], d)
  | c :: calls => do
    let (answer, d') ← d.call c
    let (answers, d'') ← d'.run calls
    return (answer :: answers, d'')

variable {d : Decoder}

theorem extend_fields (bs : Bytes) : d.fields.extend bs = (d.extend bs).fields := by
  obtain ⟨⟨state, k⟩, unread⟩ := d
  cases state <;> rfl

theorem reset_fields : d.fields.reset = d.reset.fields := by
  obtain ⟨⟨state, k⟩, unread⟩ := d
  cases state <;> rfl

theorem raw_fields : d.fields.raw = d.unread := by
  obtain ⟨⟨state, k⟩, unread⟩ := d
  cases state <;> rfl

/-- **A call is answered the same, and the fields go on fitting.** -/
theorem call_fields (h : d.scanner.Fits) (c : DecoderCall) :
    d.fields.call c = some ((d.call c).1, (d.call c).2.fields) ∧ (d.call c).2.scanner.Fits ∧
      ∀ e, (d.call c).1 = some (.error e) → e.isAboutFrame = true := by
  cases c with
  | extend bytes =>
    rw [call, extend_fields]
    exact ⟨rfl, h, fun _ h => by cases h⟩
  | reset =>
    rw [call, reset_fields]
    exact ⟨rfl, Scanner.fits_outside _, fun _ h => by cases h⟩
  | next =>
    have hnext := Scanner.answers_next d.unread d.unread h
    rw [call, next, raw_fields]
    exact hnext

/-- Any calls are answered the same, and the fields go on fitting. -/
theorem run_fields : ∀ (calls : List DecoderCall) {d : Decoder}, d.scanner.Fits →
    d.fields.run calls =
        some ((runOps Decoder.call d calls).1, (runOps Decoder.call d calls).2.fields) ∧
      (runOps Decoder.call d calls).2.scanner.Fits ∧
      ∀ e, some (.error e) ∈ (runOps Decoder.call d calls).1 → e.isAboutFrame = true := by
  intro calls
  induction calls with
  | nil => exact fun h => ⟨rfl, h, fun _ h => by cases h⟩
  | cons c calls ih =>
    intro d h
    obtain ⟨hcall, hfits, hfault⟩ := call_fields h c
    obtain ⟨hrun, hfits', hfaults⟩ := ih hfits
    rw [runOps_cons, run, hcall]
    refine ⟨?_, hfits', fun e he => ?_⟩
    · show (run (Decoder.fields _) calls >>= _) = _
      rw [hrun]
      rfl
    · rcases List.mem_cons.mp he with hfirst | hmore
      · exact hfault e hfirst.symm
      · exact hfaults e hmore

/-- The fields of a decoder that fits. -/
theorem logical_fields (h : d.scanner.Fits) : d.fields.logical.length ≤ maxFrameLength ∧
    (d.fields.state = .scanning → d.fields.logical = []) := by
  obtain ⟨⟨state, k⟩, unread⟩ := d
  cases state with
  | outside => exact ⟨Nat.zero_le _, fun _ => rfl⟩
  | inside content escaped => exact ⟨h content escaped rfl, fun h => by cases h⟩

/-- **Nothing is ever out of bounds, whatever is received and asked.**  A fresh decoder that is
kept in fields answers any calls, and steps out of bounds in none of them: its answers are
those of a decoder whose fields it has in the end.  It has collected at most 2048 bytes then,
and none when it is between frames; and the errors it gave are checksum errors and malformed
frames.

Any frame is read by places within bounds, with the result that it has; it is only refused
for a malformed path or a malformed payload.  The elements of a path are taken from whatever
bytes within bounds too, and there are at most 255 of them. -/
theorem keeps_within_bounds :
    (∀ calls : List DecoderCall, ∃ answers f, fresh.run calls = some (answers, f) ∧
      answers = (runOps Decoder.call .fresh calls).1 ∧
      f = (runOps Decoder.call .fresh calls).2.fields ∧
      f.logical.length ≤ 2048 ∧ (f.state = .scanning → f.logical = []) ∧
      ∀ e, some (.error e) ∈ answers → e.isAboutFrame = true) ∧
    (∀ f : Frame, (Envelope.ofPlaces f).run = some (Envelope.ofFrame f) ∧
      ∀ e, Envelope.ofFrame f = .error e → e.isAboutBody = true) ∧
    ∀ bs : Bytes, ∃ read, (Path.elementsAt bs).run = some read ∧
      ∀ elements taken, read = .ok (elements, taken) →
        elements.length ≤ 255 ∧ taken ≤ bs.length := by
  refine ⟨fun calls => ?_, Envelope.ofPlaces_eq, fun bs => ?_⟩
  · obtain ⟨hrun, hfits, hfaults⟩ := run_fields calls (d := .fresh) (Scanner.fits_outside 0)
    obtain ⟨hlength, hscanning⟩ := logical_fields hfits
    exact ⟨_, _, hrun, rfl, rfl, hlength, hscanning, hfaults⟩
  · refine ⟨_, Path.elementsAt_eq bs, fun elements taken hread => ?_⟩
    cases hp : Path.decode bs with
    | error e => rw [hp] at hread; cases hread
    | ok read =>
      obtain ⟨p, rest⟩ := read
      rw [hp] at hread
      cases hread
      refine ⟨p.length_le, ?_⟩
      rw [Path.eq_of_decode hp, List.length_append, Path.length_encode]
      exact Nat.le_add_right _ _

/-- Among damaged frames and after a frame that has just begun, and in a body that breaks off
in a path. -/
theorem keeps_within_bounds_damaged :
    let calls := [.extend [0xF0, 0x05, 0xF7, 0xF0, 0x00, 0x00, 0x7F, 0x00, 0x00, 0x70, 0x02, 0x02,
      0x6D, 0xF7, 0xF0, 0x01], .next, .next, .next, .reset]
    let cut : Frame := ⟨.rootController, .external, 0x00, [0x05]⟩
    ∃ f, fresh.run calls = some ([none, some (.error (.malformedFrame (.tooShort 1))),
        some (.error (.checksum 0x6C 0x6D)), none, none], f) ∧
      f.state = .scanning ∧ f.logical = [] ∧
      Envelope.ofFrame cut = .error (.malformedPath 5 0) ∧
      (ProtocolError.malformedPath 5 0).isAboutBody = true := by
  intro calls cut
  obtain ⟨hcalls, hframes, _⟩ := keeps_within_bounds
  obtain ⟨answers, f, hrun, hanswers, hf, _, hscanning, _⟩ := hcalls calls
  have hstate : f.state = .scanning := by
    rw [hf]
    rfl
  have hcut : Envelope.ofFrame cut = .error (.malformedPath 5 0) := by rfl
  refine ⟨f, ?_, hstate, hscanning hstate, hcut, (hframes cut).2 _ hcut⟩
  rw [hrun, hanswers]
  rfl

end FieldDecoder

end ZoneBus
