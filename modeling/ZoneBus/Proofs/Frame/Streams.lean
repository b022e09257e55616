import ZoneBus.Proofs.Frame.Scanning

/-!
# Streams in pieces, and streams that begin anywhere

Bytes are received in pieces of any size, and results are asked for in between, more
or less often.  What has been given out and what can still be found in the bytes not
looked at is at any time what the whole stream gives; so once nothing is left to look
at, it does not matter how the stream was cut or when it was asked.

A stream may begin in the middle of a frame, or after noise.  The first start marker
ends whatever the decoder was in, so written frames are all found from there on.

## Main definitions

* `Decoder.Call`, `Decoder.run` — receiving and asking, in any order.
* `Decoder.EndsDry` — the last call asked for a result that was not there.
* `Decoder.collected` — the content of the frame in progress.

## Main results

* `Decoder.feed_run` — what calls leave to be found.
* `Decoder.run_eq_of_received` — **a decoder gives the same however the stream is cut
  and whenever it is asked.**
* `Decoder.resynchronises` — **written frames are found whatever came before them.**
-/

namespace ZoneBus

namespace Decoder

/-! ### Calls in any order -/

/-- A call of a decoder. -/
inductive Call where
  /-- More bytes are received. -/
  | extend (bytes : Bytes)
  /-- The next result is asked for. -/
  | next
deriving DecidableEq

/-- The bytes that calls receive. -/
def received : List Call → Bytes
  | [] => []
  | .extend bytes :: calls => bytes ++ received calls
  | .next :: calls => received calls

/-- Makes calls one after another: the results that are there when they are asked for,
and the decoder in the end. -/
def run (d : Decoder) : List Call → List FrameResult × Decoder
  | [] => ([], d)
  | .extend bytes :: calls => (d.extend bytes).run calls
  | .next :: calls =>
    let (result, d') := d.next
    let (results, d'') := d'.run calls
    (result.toList ++ results, d'')

/-- The last call asks for a result, and there is none. -/
def EndsDry (d : Decoder) (calls : List Call) : Prop :=
  ∃ before, calls = before ++ [.next] ∧ (d.run before).2.next.1 = none

/-- Asking for a result takes the first of those that are to be found, and there is none
only when nothing is left to look at. -/
theorem feed_next (d : Decoder) :
    d.scanner.feed d.unread = (d.next.1.toList ++ (d.next.2.scanner.feed d.next.2.unread).1,
        (d.next.2.scanner.feed d.next.2.unread).2) ∧
      (d.next.1 = none → d.next.2.unread = []) := by
  rw [next]
  cases h : d.scanner.next d.unread with
  | mk result more =>
    obtain ⟨s, rest⟩ := more
    exact Scanner.feed_of_next h

/-- **What calls leave to be found**: with their results in front, it is what the bytes
they received give after those that were there. -/
theorem feed_run : ∀ (calls : List Call) (d : Decoder),
    d.scanner.feed (d.unread ++ received calls) =
      ((d.run calls).1 ++ ((d.run calls).2.scanner.feed (d.run calls).2.unread).1,
        ((d.run calls).2.scanner.feed (d.run calls).2.unread).2) := by
  intro calls
  induction calls with
  | nil =>
    intro d
    rw [received, List.append_nil]
    rfl
  | cons call calls ih =>
    intro d
    cases call with
    | extend bytes =>
      rw [received, run, ← ih (d.extend bytes), ← List.append_assoc]
      rfl
    | next =>
      have hrest := ih d.next.2
      rw [Scanner.feed_append] at hrest
      obtain ⟨hresults, hscanner⟩ := Prod.mk.inj hrest
      rw [received, Scanner.feed_append, (feed_next d).1]
      dsimp only
      rw [List.append_assoc, hresults, hscanner, ← List.append_assoc]
      rfl

theorem run_concat_next : ∀ (calls : List Call) (d : Decoder),
    d.run (calls ++ [.next]) =
      ((d.run calls).1 ++ (d.run calls).2.next.1.toList, (d.run calls).2.next.2) := by
  intro calls
  induction calls with
  | nil =>
    intro d
    show (d.next.1.toList ++ [], d.next.2) = (d.next.1.toList, d.next.2)
    rw [List.append_nil]
  | cons call calls ih =>
    intro d
    cases call with
    | extend bytes => exact ih (d.extend bytes)
    | next =>
      rw [List.cons_append, run, run]
      dsimp only
      rw [ih, List.append_assoc]

/-- Calls that end dry leave nothing to look at. -/
theorem EndsDry.unread {d : Decoder} {calls : List Call} (h : d.EndsDry calls) :
    (d.run calls).2.unread = [] := by
  obtain ⟨before, rfl, hdry⟩ := h
  rw [run_concat_next]
  exact (feed_next _).2 hdry

/-- Calls that end dry have given all results of what was there and what they received. -/
theorem EndsDry.run_eq {d : Decoder} {calls : List Call} (h : d.EndsDry calls) :
    d.run calls = (d.extend (received calls)).drain := by
  have hfeed := feed_run calls d
  rw [h.unread, Scanner.feed_nil, List.append_nil] at hfeed
  rw [drain_eq]
  show _ = ((d.scanner.feed (d.unread ++ received calls)).1,
    (⟨(d.scanner.feed (d.unread ++ received calls)).2, []⟩ : Decoder))
  rw [hfeed, ← h.unread]

/-- **A decoder gives the same however the stream is cut and whenever it is asked.**
Two decoders that stand alike receive the same bytes, cut in any two ways, and are
asked for results at any times in between, until there is none.  They give the same
frames and errors in the same order, and stand alike in the end, in a frame or not,
with the same content of it, as many bytes skipped and nothing left to look at.  All
this is what one gives that receives everything at once and is then drained. -/
theorem run_eq_of_received {d : Decoder} {calls calls' : List Call}
    (h : received calls = received calls') (hdry : d.EndsDry calls) (hdry' : d.EndsDry calls') :
    (d.run calls).1 = (d.run calls').1 ∧ (d.run calls).2 = (d.run calls').2 ∧
      (d.run calls).2.buffered = 0 ∧ d.run calls = (d.extend (received calls)).drain := by
  have hsame : d.run calls = d.run calls' := by rw [hdry.run_eq, hdry'.run_eq, h]
  refine ⟨congrArg Prod.fst hsame, congrArg Prod.snd hsame, ?_, hdry.run_eq⟩
  rw [buffered, hdry.unread]
  rfl

/-- Noise, a frame and the beginning of another one. -/
def brokenOff : Bytes :=
  [0x13, 0xF0, 0x00, 0x00, 0x7F, 0x00, 0x00, 0x70, 0x02, 0x02, 0x6C, 0xF7, 0xF0, 0x05, 0xF1]

/-- They come byte by byte, with a question after each, or all at once. -/
theorem run_eq_of_received_bytewise :
    let bytewise := brokenOff.flatMap fun b => [Call.extend [b], .next]
    let atOnce := [Call.extend brokenOff, .next, .next]
    received bytewise = received atOnce ∧ fresh.EndsDry bytewise ∧ fresh.EndsDry atOnce ∧
      (fresh.run bytewise).1 = [.ok ⟨.rootController, .external, 0x02, [0x02]⟩] ∧
      (fresh.run bytewise).2 = (fresh.run atOnce).2 ∧
      (fresh.run atOnce).2 = ⟨⟨.inside [0x05] true, 1⟩, []⟩ := by
  intro bytewise atOnce
  have hreceived : received bytewise = received atOnce := by decide
  have hbytewise : fresh.EndsDry bytewise := ⟨bytewise.dropLast, by decide, by decide⟩
  have hatOnce : fresh.EndsDry atOnce := ⟨atOnce.dropLast, by decide, by decide⟩
  obtain ⟨hresults, hdecoder, _⟩ := run_eq_of_received hreceived hbytewise hatOnce
  exact ⟨hreceived, hbytewise, hatOnce, hresults.trans (by rfl), hdecoder, by rfl⟩

end Decoder

/-! ### Streams that begin anywhere -/

/-- The first written frame ends the one in progress, and then all are found. -/
theorem Scanner.feed_encode_inside {content : Bytes} {escaped : Bool} {frames : List Frame}
    (hne : frames ≠ []) (h : ∀ f ∈ frames, f.content.length ≤ maxFrameLength) (k : Nat) :
    feed ⟨.inside content escaped, k⟩ (frames.map Frame.encode).flatten =
      (.error (.malformedFrame (.interrupted content.length)) :: frames.map .ok,
        ⟨.outside, k⟩) := by
  have hall := feed_encode_all k h
  cases frames with
  | nil => exact absurd rfl hne
  | cons f frames =>
    rw [List.map_cons, List.flatten_cons, Frame.encode_eq, List.cons_append] at hall ⊢
    rw [feed_interrupted, hall]

namespace Decoder

/-- The content of the frame in progress; none outside frames. -/
def collected (d : Decoder) : Bytes :=
  match d.scanner.state with
  | .outside => []
  | .inside content _ => content

/-- **Written frames are found whatever came before them.**  A decoder has looked at
everything that it received, and may stand anywhere.  It is given any frames as they
are written, each no longer than a frame may be.  When it was in a frame and is given
one at least, it gives an error for the frame that it was in, which is interrupted;
then, and otherwise at once, it gives the frames that were written, in order, and
nothing else.  After one frame or more it stands between frames, with nothing left to
look at and no further byte skipped. -/
theorem resynchronises {d : Decoder} {frames : List Frame} (hd : d.buffered = 0)
    (hframes : ∀ f ∈ frames, f.logicalBytes.length + 1 ≤ maxFrameLength) :
    let fed := (d.extend (frames.map Frame.encode).flatten).drain
    fed.1 = (if d.inFrame = true ∧ frames ≠ [] then
        [.error (.malformedFrame (.interrupted d.collected.length))] else []) ++
          frames.map .ok ∧
      (frames ≠ [] → fed.2.inFrame = false ∧ fed.2.buffered = 0 ∧ fed.2.skipped = d.skipped) ∧
      (frames = [] → fed.2 = d) := by
  obtain ⟨⟨state, skipped⟩, unread⟩ := d
  obtain rfl : unread = [] := List.length_eq_zero_iff.mp hd
  have hcontent : ∀ f ∈ frames, f.content.length ≤ maxFrameLength := by
    intro f hf
    rw [Frame.content, List.length_append, List.length_singleton]
    exact hframes f hf
  have hdrain : (extend ⟨⟨state, skipped⟩, []⟩ (frames.map Frame.encode).flatten).drain =
      ((Scanner.feed ⟨state, skipped⟩ (frames.map Frame.encode).flatten).1,
        ⟨(Scanner.feed ⟨state, skipped⟩ (frames.map Frame.encode).flatten).2, []⟩) := by
    rw [drain_eq]
    rfl
  intro fed
  rw [show fed = _ from hdrain]
  by_cases hne : frames = []
  · subst hne
    rw [if_neg (fun h => h.2 rfl)]
    exact ⟨rfl, fun hn => absurd rfl hn, fun _ => rfl⟩
  · cases state with
    | outside =>
      rw [Scanner.feed_encode_all skipped hcontent, if_neg (fun h => Bool.false_ne_true h.1)]
      exact ⟨rfl, fun _ => ⟨rfl, rfl, rfl⟩, fun hn => absurd hn hne⟩
    | inside content escaped =>
      rw [Scanner.feed_encode_inside hne hcontent skipped, if_pos ⟨rfl, hne⟩]
      exact ⟨rfl, fun _ => ⟨rfl, rfl, rfl⟩, fun hn => absurd hn hne⟩

/-- A handshake, and a frame of markers. -/
def afterNoise : List Frame :=
  [⟨.rootController, .external, 0x02, [0x02]⟩,
    ⟨.external, .rootController, 0x7E, [startMarker, endMarker, escapeMarker]⟩]

/-- They come where another frame has just broken off after an escape marker. -/
theorem resynchronises_escaped :
    let d := (fresh.run [.extend brokenOff, .next, .next]).2
    d.buffered = 0 ∧ (∀ f ∈ afterNoise, f.logicalBytes.length + 1 ≤ maxFrameLength) ∧
      (d.extend (afterNoise.map Frame.encode).flatten).drain.1 =
        [.error (.malformedFrame (.interrupted 1)),
          .ok ⟨.rootController, .external, 0x02, [0x02]⟩,
          .ok ⟨.external, .rootController, 0x7E, [startMarker, endMarker, escapeMarker]⟩] := by
  intro d
  have hd : d.buffered = 0 := by rfl
  have hshort : ∀ f ∈ afterNoise, f.logicalBytes.length + 1 ≤ maxFrameLength := by decide
  exact ⟨hd, hshort, (resynchronises hd hshort).1⟩

end Decoder

end ZoneBus
