import ZoneBus.Proofs.Message.Envelopes

/-!
# The longest frame

The scanner counts the bytes of a frame as they come, with the escapes undone, and drops
the frame at the first one that is too many.  So it does not matter which bytes are
escaped: a written frame is found exactly when its content is not too long, and is
dropped otherwise, whatever stands after it.  A sender counts the bytes of a body before
anything is escaped, and adds what a frame has besides.  Both counts come to the length of
the content, so a sender refuses the frames that would be dropped, and no others.

## Main results

* `Scanner.feed_escape_overrun` — content that grows too long gives an error first.
* `Frame.decode_oversized` — a frame that is too long is dropped.
* `Envelope.frame_of_writable` — which envelopes a sender refuses for their size.
* `Envelope.refused_iff_dropped` — **a frame is refused by a sender exactly when it would
  be dropped.**
-/

namespace ZoneBus

/-! ### Content that grows too long -/

namespace Scanner

variable {content : Bytes} {k : Nat} {b : UInt8}

/-- The byte that is too many drops the frame, whether it is written as it is or
escaped. -/
theorem feed_escapeByte_overrun (h : maxFrameLength < (content ++ [b]).length) (rest : Bytes) :
    (feed ⟨.inside content false, k⟩ (escapeByte b ++ rest)).1.head? =
      some (.error (.malformedFrame .oversized)) := by
  rw [escapeByte]
  by_cases hb : isReserved b = true
  · have hback : ~~~(~~~b) = b := UInt8.not_not
    have hstep : step ⟨.inside content true, k⟩ (~~~b) = _ :=
      step_collect_escaped (isReserved_complement hb)
    rw [hback, collect_of_gt h] at hstep
    rw [if_pos hb, List.cons_append, feed_cons_none step_escapeMarker, List.singleton_append,
      feed_cons_some hstep]
    rfl
  · have hstep : step ⟨.inside content false, k⟩ b = _ :=
      step_collect (Bool.eq_false_iff.mpr hb)
    rw [collect_of_gt h] at hstep
    rw [if_neg hb, List.singleton_append, feed_cons_some hstep]
    rfl

/-- **Content that grows too long gives an error first**, whatever comes after it. -/
theorem feed_escape_overrun (k : Nat) (rest : Bytes) : ∀ (bs content : Bytes),
    content.length ≤ maxFrameLength → maxFrameLength < (content ++ bs).length →
    (feed ⟨.inside content false, k⟩ (escape bs ++ rest)).1.head? =
      some (.error (.malformedFrame .oversized)) := by
  intro bs
  induction bs with
  | nil =>
    intro content hshort hlong
    rw [List.append_nil] at hlong
    exact absurd hshort (Nat.not_le.mpr hlong)
  | cons b bs ih =>
    intro content _ hlong
    rw [escape_cons, List.append_assoc]
    by_cases hfirst : (content ++ [b]).length ≤ maxFrameLength
    · -- the first byte still has room, so one of the others has not
      rw [List.append_cons] at hlong
      rw [feed_append, feed_escapeByte hfirst]
      exact ih _ hfirst hlong
    · exact feed_escapeByte_overrun (Nat.not_le.mp hfirst) _

end Scanner

namespace Frame

variable {f : Frame} {before : Bytes}

/-- **A frame that is too long is dropped**, whatever comes after it. -/
theorem decode_oversized (hf : maxFrameLength < f.content.length)
    (hbefore : startMarker ∉ before) (after : Bytes) :
    decode (before ++ f.encode ++ after) = .error (.malformedFrame .oversized) := by
  have hnoise : Scanner.fresh.feed before = ([], ⟨.outside, 0 + before.length⟩) :=
    Scanner.feed_noise hbefore 0
  have hdropped := Scanner.feed_escape_overrun (0 + before.length) ([endMarker] ++ after)
    f.content [] (Nat.zero_le _) hf
  have hfirst : (Scanner.fresh.next (before ++ f.encode ++ after)).1 =
      some (.error (.malformedFrame .oversized)) := by
    rw [Scanner.next_fst, List.append_assoc, Scanner.feed_append, hnoise, encode_eq,
      List.cons_append, Scanner.feed_cons_none Scanner.step_startMarker, List.append_assoc]
    exact hdropped
  rw [decode, hfirst]

/-- What is found of a frame. -/
theorem decode_written (f : Frame) (hbefore : startMarker ∉ before) (after : Bytes) :
    decode (before ++ f.encode ++ after) =
      if f.content.length ≤ maxFrameLength then .ok f
      else .error (.malformedFrame .oversized) := by
  split
  · next hshort => exact decode_noisy hshort hbefore after
  · next hlong => exact decode_oversized (Nat.not_le.mp hlong) hbefore after

end Frame

/-! ### What a sender refuses -/

namespace Envelope

/-- **Which envelopes a sender refuses for their size**, when the message has a body. -/
theorem frame_of_writable {e : Envelope} (h : e.message.Writable) :
    e.frame = if e.layout.content.length ≤ maxFrameLength then .ok e.layout
      else .error (.malformedFrame (.tooLong e.message.type? e.layout.content.length)) := by
  have hbody : e.message.body = .ok e.message.layout := Message.body_eq_ok_iff.mpr ⟨h, rfl⟩
  rw [length_content_layout, frame, hbody]
  rfl

/-- **A frame is refused by a sender exactly when it would be dropped.**  A written frame
of any size is found behind any noise without a start marker, whatever follows it, exactly
when its logical bytes and the checksum are at most 2048; otherwise it is dropped as
malformed.  A message has a body unless it is a packet whose number is not below its count
or whose data is too long for its length field.  The frame with this body is the one that
is sent, unless it is refused for its size; and it is refused exactly when it would be
dropped. -/
theorem refused_iff_dropped :
    (∀ (f : Frame) (before after : Bytes), startMarker ∉ before →
      (Frame.decode (before ++ f.encode ++ after) = .ok f ↔
          f.logicalBytes.length + 1 ≤ 2048) ∧
        (¬f.logicalBytes.length + 1 ≤ 2048 →
          Frame.decode (before ++ f.encode ++ after) = .error (.malformedFrame .oversized))) ∧
    ∀ e : Envelope, (∀ p, e.message = .setData p → p.number < p.count ∧ p.data.length ≤ 65535) →
      ∃ body, e.message.body = .ok body ∧
        let f : Frame := ⟨e.target, e.source, e.message.typeByte, body⟩
        let refusal := FrameFault.tooLong e.message.type? (f.logicalBytes.length + 1)
        (e.frame = .ok f ∨ e.frame = .error (.malformedFrame refusal)) ∧
        ∀ before after, startMarker ∉ before →
          (e.frame = .error (.malformedFrame refusal) ↔
            ∃ fault, Frame.decode (before ++ f.encode ++ after) =
              .error (.malformedFrame fault)) := by
  refine ⟨fun f before after hbefore => ?_, fun e hvalid => ?_⟩
  · rw [Frame.decode_written f hbefore after, Frame.length_content]
    by_cases hshort : f.logicalBytes.length + 1 ≤ maxFrameLength
    · rw [if_pos hshort]
      exact ⟨iff_of_true rfl hshort, fun hlong => absurd hshort hlong⟩
    · rw [if_neg hshort]
      exact ⟨iff_of_false (fun h => by cases h) hshort, fun _ => rfl⟩
  · have hwritable : e.message.Writable := by
      cases hm : e.message with
      | setData p => exact hvalid p hm
      | requestData | handshake | event | unknown => trivial
    refine ⟨e.message.layout, Message.body_eq_ok_iff.mpr ⟨hwritable, rfl⟩, ?_⟩
    -- the frame with this body is the layout of the envelope
    show (e.frame = .ok e.layout ∨ e.frame = .error (.malformedFrame
      (.tooLong e.message.type? (e.layout.logicalBytes.length + 1)))) ∧ _
    rw [frame_of_writable hwritable, Frame.length_content]
    by_cases hshort : e.layout.logicalBytes.length + 1 ≤ maxFrameLength
    · rw [if_pos hshort]
      refine ⟨Or.inl rfl, fun before after hbefore => iff_of_false (fun h => by cases h) ?_⟩
      rintro ⟨fault, hdropped⟩
      change Frame.decode (before ++ e.layout.encode ++ after) = _ at hdropped
      rw [Frame.decode_written e.layout hbefore after, Frame.length_content,
        if_pos hshort] at hdropped
      cases hdropped
    · rw [if_neg hshort]
      refine ⟨Or.inr rfl, fun before after hbefore => iff_of_true rfl ⟨.oversized, ?_⟩⟩
      show Frame.decode (before ++ e.layout.encode ++ after) = _
      rw [Frame.decode_written e.layout hbefore after, Frame.length_content, if_neg hshort]

/-- A message of another type, full of markers. -/
def allMarkers (length : Nat) : Envelope :=
  ⟨.rootController, .external, .unknown 0x09 (List.replicate length startMarker)⟩

/-- With 2040 markers for a body it is sent and found; with one more it is refused, and
would be dropped. -/
theorem refused_iff_dropped_allMarkers :
    let noise := [endMarker, 0x00, escapeMarker]
    let sent : Frame := ⟨.rootController, .external, 0x09, List.replicate 2040 startMarker⟩
    let dropped : Frame := ⟨.rootController, .external, 0x09, List.replicate 2041 startMarker⟩
    startMarker ∉ noise ∧
      Frame.decode (noise ++ sent.encode ++ [startMarker]) = .ok sent ∧
      Frame.decode (noise ++ dropped.encode ++ [endMarker]) =
        .error (.malformedFrame .oversized) ∧
      (allMarkers 2041).frame = .error (.malformedFrame (.tooLong none 2049)) := by
  intro noise sent dropped
  have hnoise : startMarker ∉ noise := by decide
  obtain ⟨hframes, hsender⟩ := refused_iff_dropped
  have hsent : sent.logicalBytes.length + 1 = 2048 := by
    rw [Frame.length_logicalBytes, List.length_replicate]
  have hdropped : dropped.logicalBytes.length + 1 = 2049 := by
    rw [Frame.length_logicalBytes, List.length_replicate]
  obtain ⟨body, hbody, _, hrefused⟩ := hsender (allMarkers 2041) (fun p hp => by cases hp)
  obtain rfl := Except.ok.inj hbody
  have hgone := (hframes dropped noise [endMarker] hnoise).2 (by omega)
  refine ⟨hnoise, (hframes sent noise [startMarker] hnoise).1.mpr (by omega), hgone, ?_⟩
  rw [← hdropped]
  exact (hrefused noise [endMarker] hnoise).mpr ⟨.oversized, hgone⟩

end Envelope

end ZoneBus
