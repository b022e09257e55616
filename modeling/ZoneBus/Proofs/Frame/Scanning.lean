import Mathlib.Data.List.Basic
import ZoneBus.Frame.Decoder

/-!
# Finding the frames that were written

Scanning some bytes after others is scanning them all, so it does not matter how
a stream is cut.  The bytes of a frame as it is written give that frame and
nothing else, and leave the scanner as it was, between frames; so the frames of
a stream of written frames are those that were written.

## Main definitions

* `Decoder.receive` — taking chunks one after another, each with all its results.

## Main results

* `Scanner.feed_append` — scanning goes on where it stopped.
* `Scanner.feed_escape` — escaped bytes become content.
* `Frame.ofContent_content` — a frame is read back from its content.
* `Scanner.feed_encode`, `Scanner.feed_encode_all` — written frames are found.
* `Frame.decode_noisy` — so is the first one behind noise.
* `Decoder.receive_eq` — **a decoder gives the same however the stream is cut.**
-/

namespace ZoneBus

/-! ### Reserved bytes -/

theorem isReserved_iff {b : UInt8} :
    isReserved b = true ↔ b = startMarker ∨ b = endMarker ∨ b = escapeMarker := by
  simp [isReserved, or_assoc]

theorem not_isReserved_iff {b : UInt8} :
    isReserved b = false ↔ b ≠ startMarker ∧ b ≠ endMarker ∧ b ≠ escapeMarker := by
  rw [← Bool.not_eq_true, isReserved_iff, not_or, not_or]

/-- The complement of a reserved byte is not reserved. -/
theorem isReserved_complement {b : UInt8} (h : isReserved b = true) :
    isReserved (~~~b) = false := by
  rcases isReserved_iff.mp h with rfl | rfl | rfl
  · decide
  · decide
  · decide

theorem escape_nil : escape [] = [] := rfl

theorem escape_cons (b : UInt8) (bs : Bytes) : escape (b :: bs) = escapeByte b ++ escape bs :=
  List.flatMap_cons

/-! ### Scanning -/

namespace Scanner

theorem feed_nil (s : Scanner) : s.feed [] = ([], s) := rfl

theorem feed_cons_none {s s' : Scanner} {b : UInt8} (h : s.step b = (s', none)) (rest : Bytes) :
    s.feed (b :: rest) = s'.feed rest := by
  rw [feed, h]
  rfl

theorem feed_cons_some {s s' : Scanner} {b : UInt8} {r : FrameResult}
    (h : s.step b = (s', some r)) (rest : Bytes) :
    s.feed (b :: rest) = (r :: (s'.feed rest).1, (s'.feed rest).2) := by
  rw [feed, h]
  rfl

/-- **Scanning goes on where it stopped.** -/
theorem feed_append : ∀ (as bs : Bytes) (s : Scanner),
    s.feed (as ++ bs) =
      ((s.feed as).1 ++ ((s.feed as).2.feed bs).1, ((s.feed as).2.feed bs).2) := by
  intro as bs
  induction as with
  | nil => exact fun _ => rfl
  | cons b as ih =>
    intro s
    rw [List.cons_append]
    cases hs : s.step b with
    | mk s' result =>
      cases result with
      | none =>
        rw [feed_cons_none hs, feed_cons_none hs]
        exact ih s'
      | some r =>
        rw [feed_cons_some hs, feed_cons_some hs, ih s']
        rfl

section Steps

variable {content : Bytes} {k : Nat} {b : UInt8}

theorem collect_of_le {s : Scanner} (h : content.length ≤ maxFrameLength) :
    s.collect content = (⟨.inside content false, s.skipped⟩, none) := by
  rw [collect, if_neg (Nat.not_lt.mpr h)]

theorem collect_of_gt {s : Scanner} (h : maxFrameLength < content.length) :
    s.collect content = (⟨.outside, s.skipped⟩, some (.error (.malformedFrame .oversized))) := by
  rw [collect, if_pos h]

/-- A byte that is not reserved is collected. -/
theorem step_collect (h : isReserved b = false) :
    step ⟨.inside content false, k⟩ b = collect ⟨.inside content false, k⟩ (content ++ [b]) := by
  obtain ⟨hstart, hend, hesc⟩ := not_isReserved_iff.mp h
  rw [step]
  dsimp only
  rw [if_neg hstart, if_neg hend, if_neg Bool.false_ne_true, if_neg hesc]

/-- After an escape marker, the complement of a byte that is not reserved is collected. -/
theorem step_collect_escaped (h : isReserved b = false) :
    step ⟨.inside content true, k⟩ b = collect ⟨.inside content true, k⟩ (content ++ [~~~b]) := by
  obtain ⟨hstart, hend, _⟩ := not_isReserved_iff.mp h
  rw [step]
  dsimp only
  rw [if_neg hstart, if_neg hend, if_pos rfl]

/-- A byte that is not reserved becomes content. -/
theorem step_plain (h : isReserved b = false) (hle : (content ++ [b]).length ≤ maxFrameLength) :
    step ⟨.inside content false, k⟩ b = (⟨.inside (content ++ [b]) false, k⟩, none) := by
  rw [step_collect h, collect_of_le hle]

/-- After an escape marker, the complement of a byte that is not reserved does. -/
theorem step_escaped (h : isReserved b = false)
    (hle : (content ++ [~~~b]).length ≤ maxFrameLength) :
    step ⟨.inside content true, k⟩ b = (⟨.inside (content ++ [~~~b]) false, k⟩, none) := by
  rw [step_collect_escaped h, collect_of_le hle]

theorem step_escapeMarker :
    step ⟨.inside content false, k⟩ escapeMarker = (⟨.inside content true, k⟩, none) := by
  rw [step]
  dsimp only
  rw [if_neg (by decide), if_neg (by decide), if_neg Bool.false_ne_true, if_pos rfl]

theorem step_startMarker :
    step ⟨.outside, k⟩ startMarker = (⟨.inside [] false, k⟩, none) := by
  rw [step]
  dsimp only
  rw [if_pos rfl]

theorem step_endMarker :
    step ⟨.inside content false, k⟩ endMarker =
      (⟨.outside, k⟩, some (Frame.ofContent content)) := by
  rw [step]
  dsimp only
  rw [if_neg (by decide), if_pos rfl, if_neg Bool.false_ne_true]

/-- A start marker inside a frame drops it, and does then what it does outside. -/
theorem feed_interrupted {escaped : Bool} (rest : Bytes) :
    feed ⟨.inside content escaped, k⟩ (startMarker :: rest) =
      (.error (.malformedFrame (.interrupted content.length)) ::
        (feed ⟨.outside, k⟩ (startMarker :: rest)).1,
        (feed ⟨.outside, k⟩ (startMarker :: rest)).2) := by
  have hstep : step ⟨.inside content escaped, k⟩ startMarker = (⟨.inside [] false, k⟩,
      some (.error (.malformedFrame (.interrupted content.length)))) := by
    rw [step]
    dsimp only
    rw [if_pos rfl]
  rw [feed_cons_some hstep, feed_cons_none step_startMarker]

/-- A byte becomes content, whether it is written as it is or escaped. -/
theorem feed_escapeByte (h : (content ++ [b]).length ≤ maxFrameLength) :
    feed ⟨.inside content false, k⟩ (escapeByte b) = ([], ⟨.inside (content ++ [b]) false, k⟩) := by
  rw [escapeByte]
  by_cases hb : isReserved b = true
  · have hback : ~~~(~~~b) = b := UInt8.not_not
    have hesc : _ → step ⟨.inside content true, k⟩ (~~~b) = _ :=
      step_escaped (isReserved_complement hb)
    rw [hback] at hesc
    rw [if_pos hb, feed_cons_none step_escapeMarker, feed_cons_none (hesc h), feed_nil]
  · rw [if_neg hb, feed_cons_none (step_plain (Bool.eq_false_iff.mpr hb) h), feed_nil]

end Steps

/-- **Escaped bytes become content**, as long as it does not grow too long. -/
theorem feed_escape (k : Nat) : ∀ (bs content : Bytes), (content ++ bs).length ≤ maxFrameLength →
    feed ⟨.inside content false, k⟩ (escape bs) = ([], ⟨.inside (content ++ bs) false, k⟩) := by
  intro bs
  induction bs with
  | nil =>
    intro content _
    rw [escape_nil, feed_nil, List.append_nil]
  | cons b bs ih =>
    intro content h
    -- the first byte joins the content, and the others follow it
    rw [List.append_cons] at h ⊢
    have hfirst : (content ++ [b]).length ≤ maxFrameLength := by
      rw [List.length_append] at h
      exact Nat.le_trans (Nat.le_add_right _ _) h
    rw [escape_cons, feed_append, feed_escapeByte hfirst, ih _ h]
    rfl

end Scanner

/-! ### Frames that were written -/

namespace Frame

theorem length_content (f : Frame) : f.content.length = f.logicalBytes.length + 1 := by
  rw [content, List.length_append, List.length_singleton]

/-- Two addresses and the type byte stand before the body. -/
theorem length_logicalBytes (f : Frame) : f.logicalBytes.length = f.body.length + 7 := by
  simp only [logicalBytes, List.length_append, List.length_cons, Address.length_bytes]
  omega

/-- **A frame is read back from its content.** -/
theorem ofContent_content (f : Frame) : ofContent f.content = .ok f := by
  have hlong : ¬f.content.length < minFrameLength := by
    rw [length_content, length_logicalBytes, minFrameLength]
    omega
  have hcovered : f.content.dropLast = f.logicalBytes := List.dropLast_concat
  have hlast : f.content.getLastD 0 = checksum f.logicalBytes := by
    rw [content, List.getLastD_concat]
  rw [ofContent, if_neg hlong]
  dsimp only
  rw [hcovered, hlast, if_neg (fun h => h rfl)]
  rfl

theorem encode_eq (f : Frame) : f.encode = startMarker :: (escape f.content ++ [endMarker]) := rfl

end Frame

namespace Scanner

/-- Content between markers gives one result, and leaves the scanner between frames. -/
theorem feed_content_written {content : Bytes} (h : content.length ≤ maxFrameLength) (k : Nat) :
    feed ⟨.outside, k⟩ (startMarker :: (escape content ++ [endMarker])) =
      ([Frame.ofContent content], ⟨.outside, k⟩) := by
  have hin : feed ⟨.inside [] false, k⟩ (escape content) =
      ([], ⟨.inside content false, k⟩) := feed_escape k content [] h
  rw [feed_cons_none step_startMarker, feed_append, hin, feed_cons_some step_endMarker, feed_nil]
  rfl

/-- **A written frame is found**, and leaves the scanner between frames. -/
theorem feed_encode {f : Frame} (h : f.content.length ≤ maxFrameLength) (k : Nat) :
    feed ⟨.outside, k⟩ f.encode = ([.ok f], ⟨.outside, k⟩) := by
  rw [Frame.encode_eq, feed_content_written h, Frame.ofContent_content]

/-- A frame that is cut short gives nothing. -/
theorem feed_encode_cut {f : Frame} (h : f.content.length ≤ maxFrameLength) (k : Nat)
    {front rest : Bytes} (hcut : f.encode = front ++ rest) (hrest : rest ≠ []) :
    (feed ⟨.outside, k⟩ front).1 = [] := by
  -- without the end marker at least, there is no result yet
  have hopen : (feed ⟨.outside, k⟩ (startMarker :: escape f.content)).1 = [] := by
    rw [feed_cons_none step_startMarker, feed_escape k f.content [] h]
  obtain ⟨left, last, rfl⟩ := (List.eq_nil_or_concat rest).resolve_left hrest
  rw [Frame.encode_eq, ← List.cons_append, List.concat_eq_append, ← List.append_assoc] at hcut
  have hfront := (List.append_inj' hcut rfl).1
  rw [hfront, feed_append] at hopen
  exact (List.append_eq_nil_iff.mp hopen).1

/-- The frames of a stream are those that were written. -/
theorem feed_encode_all (k : Nat) : ∀ {fs : List Frame},
    (∀ f ∈ fs, f.content.length ≤ maxFrameLength) →
    feed ⟨.outside, k⟩ (fs.map Frame.encode).flatten = (fs.map .ok, ⟨.outside, k⟩) := by
  intro fs
  induction fs with
  | nil => exact fun _ => rfl
  | cons f fs ih =>
    intro h
    rw [List.forall_mem_cons] at h
    rw [List.map_cons, List.flatten_cons, feed_append, feed_encode h.1, ih h.2]
    rfl

/-- The first result, and scanning the bytes after it, is scanning all. -/
theorem feed_of_next : ∀ {bs rest : Bytes} {s s' : Scanner} {r : Option FrameResult},
    s.next bs = (r, s', rest) →
    s.feed bs = (r.toList ++ (s'.feed rest).1, (s'.feed rest).2) ∧ (r = none → rest = []) := by
  intro bs
  induction bs with
  | nil =>
    intro rest s s' r h
    rw [next, Prod.mk.injEq, Prod.mk.injEq] at h
    obtain ⟨rfl, rfl, rfl⟩ := h
    exact ⟨rfl, fun _ => rfl⟩
  | cons b bs ih =>
    intro rest s s' r h
    rw [next] at h
    cases hs : s.step b with
    | mk s₁ result =>
      rw [hs] at h
      cases result with
      | none =>
        rw [feed_cons_none hs]
        exact ih h
      | some r₁ =>
        dsimp only at h
        rw [Prod.mk.injEq, Prod.mk.injEq] at h
        obtain ⟨rfl, rfl, rfl⟩ := h
        rw [feed_cons_some hs]
        exact ⟨rfl, fun hr => by cases hr⟩

/-- The first result is the first of all. -/
theorem next_fst (s : Scanner) (bs : Bytes) : (s.next bs).1 = (s.feed bs).1.head? := by
  have hnext : s.next bs = ((s.next bs).1, (s.next bs).2.1, (s.next bs).2.2) := rfl
  obtain ⟨hfeed, hrest⟩ := feed_of_next hnext
  rw [hfeed]
  cases hr : (s.next bs).1 with
  | none => rw [hrest hr, feed_nil]; rfl
  | some r => rfl

/-- Noise between frames is skipped. -/
theorem feed_noise {bs : Bytes} (h : startMarker ∉ bs) (k : Nat) :
    feed ⟨.outside, k⟩ bs = ([], ⟨.outside, k + bs.length⟩) := by
  induction bs generalizing k with
  | nil => rfl
  | cons b bs ih =>
    rw [List.mem_cons, not_or] at h
    have hstep : step ⟨.outside, k⟩ b = (⟨.outside, k + 1⟩, none) := by
      rw [step]
      dsimp only
      rw [if_neg (Ne.symm h.1)]
    rw [feed_cons_none hstep, ih h.2, List.length_cons, Nat.add_assoc, Nat.add_comm 1]

end Scanner

/-- **A written frame is found behind noise**, whatever comes after it. -/
theorem Frame.decode_noisy {f : Frame} {before : Bytes} (hf : f.content.length ≤ maxFrameLength)
    (hbefore : startMarker ∉ before) (after : Bytes) :
    Frame.decode (before ++ f.encode ++ after) = .ok f := by
  have hnoise : Scanner.fresh.feed before = ([], ⟨.outside, 0 + before.length⟩) :=
    Scanner.feed_noise hbefore 0
  have hfirst : (Scanner.fresh.next (before ++ f.encode ++ after)).1 = some (.ok f) := by
    rw [Scanner.next_fst, List.append_assoc, Scanner.feed_append, hnoise, Scanner.feed_append,
      Scanner.feed_encode hf]
    rfl
  rw [decode, hfirst]

/-! ### Streams in chunks -/

namespace Decoder

/-- Everything is looked at, with all its results. -/
theorem drain_eq (d : Decoder) :
    d.drain = ((d.scanner.feed d.unread).1, ⟨(d.scanner.feed d.unread).2, []⟩) := by
  -- by induction along the results: each is the first one of what is unread
  induction d using drain.induct with
  | case1 d s rest h =>
    obtain ⟨hfeed, hrest⟩ := Scanner.feed_of_next h
    obtain rfl := hrest rfl
    rw [drain]
    split
    · next heq =>
      rw [h, Prod.mk.injEq, Prod.mk.injEq] at heq
      obtain ⟨_, rfl, rfl⟩ := heq
      rw [hfeed]
      rfl
    · next heq =>
      rw [h, Prod.mk.injEq] at heq
      cases heq.1
  | case2 d r s rest h rs d' hdrain ih =>
    obtain ⟨hfeed, _⟩ := Scanner.feed_of_next h
    rw [drain]
    split
    · next heq =>
      rw [h, Prod.mk.injEq] at heq
      cases heq.1
    · next heq =>
      rw [h, Prod.mk.injEq, Prod.mk.injEq] at heq
      obtain ⟨hr, rfl, rfl⟩ := heq
      obtain rfl := Option.some.inj hr
      rw [ih, hfeed]
      rfl

/-- Takes chunks one after another, each with all its results. -/
def receive (d : Decoder) : List Bytes → List FrameResult × Decoder
  | [] => ([], d)
  | chunk :: rest =>
    let (results, d') := (d.extend chunk).drain
    let (more, d'') := d'.receive rest
    (results ++ more, d'')

/-- **A decoder gives the same however the stream is cut.** -/
theorem receive_eq : ∀ (chunks : List Bytes) (s : Scanner),
    receive ⟨s, []⟩ chunks = ((s.feed chunks.flatten).1, ⟨(s.feed chunks.flatten).2, []⟩) := by
  intro chunks
  induction chunks with
  | nil => exact fun _ => rfl
  | cons chunk chunks ih =>
    intro s
    have hfirst : (extend ⟨s, []⟩ chunk).drain =
        ((s.feed chunk).1, ⟨(s.feed chunk).2, []⟩) := drain_eq ⟨s, chunk⟩
    rw [receive, hfirst, List.flatten_cons, Scanner.feed_append]
    dsimp only
    rw [ih]

end Decoder

end ZoneBus
