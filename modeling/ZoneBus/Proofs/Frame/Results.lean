import Mathlib.Data.List.Forall2
import ZoneBus.Proofs.Frame.Segments

/-!
# What the segments of a stream give

A segment that an end marker closes carries some bytes and a last one, unless it
breaks off after an escape marker or is too short.  Where the last byte is the
checksum of the others, these are the logical bytes of a frame, and the segment gives
that frame; where it is not, the segment gives a checksum error, and every other
segment gives a malformed frame.  The scanner keeps the content of the segment that it
is in, with its escapes undone, so its results are those of the segments.

## Main definitions

* `Segment.Carries` — the bytes and the last byte in a segment.
* `Segment.Gives` — what a segment gives.
* `Segment.result` — the result that the scanner makes of a segment.

## Main results

* `Segment.gives_result` — a segment gives the result that the scanner makes of it.
* `Scanner.feed_content` — the scanner keeps the content of the segment it is in.
* `Scanner.feed_segmented` — scanning a stream is scanning its segments.
* `Decoder.drain_segmented` — **the results of a decoder are those of the segments.**
-/

namespace ZoneBus

/-! ### Frames and their logical bytes -/

namespace Frame

/-- Seven bytes or more are the logical bytes of a frame. -/
theorem exists_logicalBytes {covered : Bytes} (h : minFrameLength ≤ covered.length + 1) :
    ∃ f : Frame, f.logicalBytes = covered := by
  match covered, h with
  | a :: b :: c :: d :: e :: g :: type :: body, _ =>
    exact ⟨⟨⟨a, b, c⟩, ⟨d, e, g⟩, type, body⟩, rfl⟩
  | [], h | [_], h | [_, _], h | [_, _, _], h | [_, _, _, _], h | [_, _, _, _, _], h
  | [_, _, _, _, _, _], h => simp [minFrameLength] at h

/-- The logical bytes of a frame are its fields. -/
theorem logicalBytes_injective {f g : Frame} (h : f.logicalBytes = g.logicalBytes) : f = g := by
  obtain ⟨⟨_, _, _⟩, ⟨_, _, _⟩, _, _⟩ := f
  obtain ⟨⟨_, _, _⟩, ⟨_, _, _⟩, _, _⟩ := g
  simp [logicalBytes, Address.bytes] at h
  simp [h]

/-- Logical bytes that another byte than their checksum follows are refused for it. -/
theorem ofContent_mismatch {f : Frame} {last : UInt8} (h : last ≠ checksum f.logicalBytes) :
    ofContent (f.logicalBytes ++ [last]) =
      .error (.checksum (checksum f.logicalBytes) last) := by
  have hlong : ¬(f.logicalBytes ++ [last]).length < minFrameLength := by
    rw [List.length_append, length_logicalBytes, List.length_singleton, minFrameLength]
    omega
  rw [ofContent, if_neg hlong]
  dsimp only
  rw [List.dropLast_concat, List.getLastD_concat, if_pos h]

/-- Content is too short for a frame, or it is the logical bytes of one and a last byte. -/
theorem content_cases (content : Bytes) : content.length < minFrameLength ∨
    ∃ (f : Frame) (last : UInt8), content = f.logicalBytes ++ [last] := by
  by_cases hshort : content.length < minFrameLength
  · exact Or.inl hshort
  · have hne : content ≠ [] := by
      rintro rfl
      exact hshort (by decide)
    obtain ⟨covered, last, rfl⟩ := (List.eq_nil_or_concat' _).resolve_left hne
    rw [List.length_append, List.length_singleton] at hshort
    obtain ⟨f, rfl⟩ := exists_logicalBytes (Nat.not_lt.mp hshort)
    exact Or.inr ⟨f, last, rfl⟩

end Frame

/-! ### What is in a segment -/

namespace Segment

variable {s : Segment} {covered covered' : Bytes} {last last' : UInt8} {f : Frame}

/-- A segment carries some bytes and a last one: an end marker closes it, not right
after an escape marker without a partner, its content with the escapes undone is these
bytes, and they are not too few and not too many. -/
structure Carries (s : Segment) (covered : Bytes) (last : UInt8) : Prop where
  /-- An end marker closes it. -/
  ended : s.closing = .ended
  /-- No partner is missing at the end. -/
  paired : dangling s.content = false
  /-- These are its bytes. -/
  content : unescape s.content = covered ++ [last]
  /-- They are not too few for a frame. -/
  long : minFrameLength ≤ covered.length + 1
  /-- They are not too many for a frame. -/
  short : covered.length + 1 ≤ maxFrameLength

/-- What a segment gives: a frame when it carries the frame's logical bytes and their
checksum, a checksum error when the last byte is another one, and a malformed frame
when it carries nothing. -/
structure Gives (s : Segment) (r : FrameResult) : Prop where
  /-- When it gives a frame. -/
  frame : ∀ f, r = .ok f ↔ s.Carries f.logicalBytes (checksum f.logicalBytes)
  /-- When it gives a checksum error. -/
  mismatch : ∀ expected actual, r = .error (.checksum expected actual) ↔
    ∃ covered, s.Carries covered actual ∧ expected = checksum covered ∧ actual ≠ expected
  /-- When it gives a malformed frame. -/
  malformed : (∃ fault, r = .error (.malformedFrame fault)) ↔
    ∀ covered last, ¬s.Carries covered last

theorem Carries.unique (h : s.Carries covered last) (h' : s.Carries covered' last') :
    covered' = covered ∧ last' = last :=
  List.append_singleton_inj.mp (h'.content.symm.trans h.content)

/-- What a segment gives that carries something. -/
theorem gives_of_carries (h : s.Carries f.logicalBytes last) :
    s.Gives (Frame.ofContent (f.logicalBytes ++ [last])) := by
  by_cases hsum : last = checksum f.logicalBytes
  · subst hsum
    have hok : Frame.ofContent (f.logicalBytes ++ [checksum f.logicalBytes]) = .ok f :=
      Frame.ofContent_content f
    rw [hok]
    refine ⟨fun g => ⟨?_, fun hg => ?_⟩, fun expected actual => iff_of_false ?_ ?_,
      iff_of_false ?_ fun hn => hn _ _ h⟩
    · rintro ⟨⟩
      exact h
    · rw [Frame.logicalBytes_injective (h.unique hg).1]
    · rintro ⟨⟩
    · rintro ⟨covered, hc, rfl, hne⟩
      obtain ⟨rfl, rfl⟩ := h.unique hc
      exact hne rfl
    · rintro ⟨fault, ⟨⟩⟩
  · rw [Frame.ofContent_mismatch hsum]
    refine ⟨fun g => iff_of_false ?_ fun hg => ?_, fun expected actual => ⟨?_, ?_⟩,
      iff_of_false ?_ fun hn => hn _ _ h⟩
    · rintro ⟨⟩
    · obtain ⟨hlogical, hlast⟩ := h.unique hg
      rw [← hlast, hlogical] at hsum
      exact hsum rfl
    · rintro ⟨⟩
      exact ⟨_, h, rfl, hsum⟩
    · rintro ⟨covered, hc, rfl, _⟩
      obtain ⟨rfl, rfl⟩ := h.unique hc
      rfl
    · rintro ⟨fault, ⟨⟩⟩

/-- What a segment gives that carries nothing. -/
theorem gives_of_not_carries (h : ∀ covered last, ¬s.Carries covered last) (fault : FrameFault) :
    s.Gives (.error (.malformedFrame fault)) := by
  refine ⟨fun f => iff_of_false ?_ (h _ _), fun expected actual => iff_of_false ?_ ?_,
    iff_of_true ⟨fault, rfl⟩ h⟩
  · rintro ⟨⟩
  · rintro ⟨⟩
  · rintro ⟨covered, hc, _⟩
    exact h _ _ hc

/-- What a segment gives that an end marker closes where no partner is missing. -/
theorem gives_ofContent {content : Bytes} (hd : dangling content = false)
    (hshort : (unescape content).length ≤ maxFrameLength) :
    Gives ⟨content, .ended⟩ (Frame.ofContent (unescape content)) := by
  obtain hlong | ⟨f, last, hbytes⟩ := Frame.content_cases (unescape content)
  · rw [Frame.ofContent, if_pos hlong]
    refine gives_of_not_carries (fun covered last h => ?_) _
    have hbytes : unescape content = covered ++ [last] := h.content
    have hfew := h.long
    rw [hbytes, List.length_append, List.length_singleton] at hlong
    omega
  · have hmin : minFrameLength ≤ f.logicalBytes.length + 1 := by
      rw [Frame.length_logicalBytes, minFrameLength]
      omega
    rw [hbytes, List.length_append, List.length_singleton] at hshort
    rw [hbytes]
    exact gives_of_carries ⟨rfl, hd, hbytes, hmin, hshort⟩

/-- The result that the scanner makes of a segment. -/
def result (s : Segment) : FrameResult :=
  match s.closing with
  | .interrupted => .error (.malformedFrame (.interrupted (unescape s.content).length))
  | .overrun => .error (.malformedFrame .oversized)
  | .ended =>
    if dangling s.content then .error (.malformedFrame .danglingEscape)
    else Frame.ofContent (unescape s.content)

/-- **A segment gives the result that the scanner makes of it.** -/
theorem gives_result {s : Segment} (hc : OpenContent s.content) : s.Gives s.result := by
  obtain ⟨content, closing⟩ := s
  cases closing with
  | interrupted => exact gives_of_not_carries (fun _ _ h => by cases h.ended) _
  | overrun => exact gives_of_not_carries (fun _ _ h => by cases h.ended) _
  | ended =>
    rw [result]
    dsimp only
    split
    · next hd =>
      refine gives_of_not_carries (fun covered last h => ?_) _
      have hpaired : dangling content = false := h.paired
      rw [hd] at hpaired
      cases hpaired
    · next hd => exact gives_ofContent (Bool.eq_false_iff.mpr hd) hc.short

end Segment

/-! ### Scanning segments -/

namespace Scanner

variable {content : Bytes} {b : UInt8} {k : Nat}

/-- What a byte that is no marker does inside a segment. -/
theorem step_inside (hstart : b ≠ startMarker) (hend : b ≠ endMarker) :
    step ⟨.inside (unescape content) (dangling content), k⟩ b =
      if dangling (content ++ [b]) = true then
        (⟨.inside (unescape (content ++ [b])) true, k⟩, none)
      else collect ⟨.inside (unescape content) (dangling content), k⟩
        (unescape (content ++ [b])) := by
  rw [step, unescape_concat, dangling_concat]
  dsimp only
  rw [if_neg hstart, if_neg hend]
  by_cases hd : dangling content = true
  · simp [hd]
  · by_cases hb : b = escapeMarker
    · simp [hd, hb]
    · simp [hd, hb]

/-- **The scanner keeps the content of the segment it is in**, with its escapes undone. -/
theorem feed_content (k : Nat) (hc : OpenContent content) :
    feed ⟨.inside [] false, k⟩ content =
      ([], ⟨.inside (unescape content) (dangling content), k⟩) := by
  induction content using List.reverseRecOn with
  | nil => rfl
  | append_singleton content b ih =>
    have hstart : b ≠ startMarker := by
      rintro rfl
      exact not_openContent_startMarker _ hc
    have hend : b ≠ endMarker := by
      rintro rfl
      exact not_openContent_endMarker _ hc
    have hstep : step ⟨.inside (unescape content) (dangling content), k⟩ b =
        (⟨.inside (unescape (content ++ [b])) (dangling (content ++ [b])), k⟩, none) := by
      rw [step_inside hstart hend]
      split
      · next hd => rw [hd]
      · next hd => rw [collect_of_le hc.short, Bool.eq_false_iff.mpr hd]
    rw [feed_append, ih hc.of_append, feed_cons_none hstep]
    rfl

/-- A byte that makes content too long closes the segment. -/
theorem step_overrun (hc : OpenContent content) (hstart : b ≠ startMarker) (hend : b ≠ endMarker)
    (hlong : (unescape (content ++ [b])).length = maxFrameLength + 1) :
    step ⟨.inside (unescape content) (dangling content), k⟩ b =
      (⟨.outside, k⟩, some (.error (.malformedFrame .oversized))) := by
  have hpaired : dangling (content ++ [b]) ≠ true := by
    -- an escape marker adds nothing yet, so it cannot make content too long
    intro hd
    rw [dangling_concat, Bool.and_eq_true, Bool.not_eq_true', beq_iff_eq] at hd
    have hshort := hc.short
    rw [unescape_concat, hd.1, if_neg Bool.false_ne_true, if_pos hd.2, List.append_nil] at hlong
    omega
  rw [step_inside hstart hend, if_neg hpaired, collect, if_pos (by omega)]

/-- Where the scanner stands after a stream. -/
def stateAfter : Option Bytes → ScanState
  | none => .outside
  | some content => .inside (unescape content) (dangling content)

/-- **Scanning a stream is scanning its segments.** -/
theorem feed_segmented {stream : Bytes} {segments : List Segment} {unclosed : Option Bytes}
    {n : Nat} (h : Segmented stream segments unclosed n) : ∀ (k : Nat),
    feed ⟨.outside, k⟩ stream = (segments.map Segment.result, ⟨stateAfter unclosed, k + n⟩) := by
  induction h with
  | empty => exact fun _ => rfl
  | @outside b rest _ _ n hb h ih =>
    intro k
    have hstep : step ⟨.outside, k⟩ b = (⟨.outside, k + 1⟩, none) := by
      rw [step]
      dsimp only
      rw [if_neg hb]
    rw [feed_cons_none hstep, ih, Nat.add_assoc, Nat.add_comm 1 n]
  | @interrupted content rest _ _ _ hc h ih =>
    intro k
    rw [feed_cons_none step_startMarker, feed_append, feed_content k hc, feed_interrupted, ih]
    rfl
  | @ended content rest _ _ _ hc h ih =>
    intro k
    have hstep : step ⟨.inside (unescape content) (dangling content), k⟩ endMarker =
        (⟨.outside, k⟩, some (Segment.result ⟨content, .ended⟩)) := by
      rw [step]
      dsimp only
      rw [if_neg (by decide), if_pos rfl]
      rfl
    rw [feed_cons_none step_startMarker, feed_append, feed_content k hc, feed_cons_some hstep, ih]
    rfl
  | @overrun content rest b _ _ _ hc hstart hend hlong h ih =>
    intro k
    rw [feed_cons_none step_startMarker, feed_append, feed_content k hc,
      feed_cons_some (step_overrun hc hstart hend hlong), ih]
    rfl
  | unclosed hc =>
    intro k
    rw [feed_cons_none step_startMarker, feed_content k hc]
    rfl

end Scanner

namespace Decoder

/-- **The results of a decoder are those of the segments.**  A stream falls into
segments in one way, and every start marker opens one of them.  A fresh decoder that
is given the stream and drained makes one result of every segment that closes, in
order: each is what its segment gives.  It is in a frame exactly when the last segment
does not close, it has skipped as many bytes as stand outside all segments, and
nothing is left to look at. -/
theorem drain_segmented (stream : Bytes) :
    ∃ segments unclosed outside, Segmented stream segments unclosed outside ∧
      (∀ segments' unclosed' outside', Segmented stream segments' unclosed' outside' →
        segments' = segments ∧ unclosed' = unclosed ∧ outside' = outside) ∧
      stream.count startMarker = segments.length + unclosed.toList.length ∧
      List.Forall₂ Segment.Gives segments (fresh.extend stream).drain.1 ∧
      (fresh.extend stream).drain.2.inFrame = unclosed.isSome ∧
      (fresh.extend stream).drain.2.skipped = outside ∧
      (fresh.extend stream).drain.2.buffered = 0 := by
  obtain ⟨segments, unclosed, outside, h⟩ := exists_segmented stream
  refine ⟨segments, unclosed, outside, h, fun _ _ _ => h.unique, h.count_startMarker, ?_⟩
  have hdrain : (fresh.extend stream).drain =
      (segments.map Segment.result, ⟨⟨Scanner.stateAfter unclosed, 0 + outside⟩, []⟩) := by
    rw [drain_eq]
    show ((Scanner.feed ⟨.outside, 0⟩ stream).1, _) = _
    rw [extend, fresh, Scanner.fresh, List.nil_append, Scanner.feed_segmented h 0]
  rw [hdrain]
  refine ⟨?_, ?_, Nat.zero_add _, rfl⟩
  · rw [List.forall₂_map_right_iff, List.forall₂_same]
    exact fun s hm => Segment.gives_result (h.openContent_of_mem s hm)
  · cases unclosed with
    | none => rfl
    | some content => rfl

end Decoder

end ZoneBus
