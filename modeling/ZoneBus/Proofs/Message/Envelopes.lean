import ZoneBus.Proofs.Frame.Scanning
import ZoneBus.Proofs.Message.Layouts

/-!
# Envelopes and their frames

The frame of an envelope holds its addresses, the type byte of its message and the
layout of its message.  An envelope is sent in this frame when the message has a body
and the frame is not too long; a frame is read as an envelope when it is this frame and
the message is canonical.  Both laws speak of the same frame, so what was sent comes
back exactly when its message is canonical, and what was read is sent again as it was.

## Main definitions

* `Envelope.layout` — the frame that holds an envelope.

## Main results

* `Envelope.frame_eq_ok_iff`, `Envelope.ofFrame_eq_ok_iff` — the two laws.
* `Envelope.round_trips_iff_canonical` — **which envelopes can be sent, and which of
  them come back.**
* `Envelope.frame_of_ofFrame` — **a frame that is read is the only one with that
  meaning.**
-/

namespace ZoneBus

namespace Envelope

/-- The frame that holds an envelope. -/
def layout (e : Envelope) : Frame := ⟨e.target, e.source, e.message.typeByte, e.message.layout⟩

/-- A frame has seven bytes besides its body, and its checksum. -/
theorem length_content_layout (e : Envelope) :
    e.layout.content.length = frameLength e.message.layout := by
  simp only [layout, Frame.content, Frame.logicalBytes, frameLength, List.length_append,
    List.length_cons, Address.length_bytes, List.length_nil]
  omega

/-- An envelope is sent in the frame that holds it, when its message has a body and the
frame is not too long. -/
theorem frame_eq_ok_iff {e : Envelope} {f : Frame} :
    e.frame = .ok f ↔
      (e.message.Writable ∧ frameLength e.message.layout ≤ maxFrameLength) ∧ f = e.layout := by
  have hframe : e.frame = e.message.body >>= fun body =>
      if frameLength body ≤ maxFrameLength then
        .ok ⟨e.target, e.source, e.message.typeByte, body⟩
      else .error (.malformedFrame (.tooLong e.message.type? (frameLength body))) := rfl
  rw [hframe]
  cases hb : e.message.body with
  | error error =>
    refine iff_of_false (fun h => by cases h) fun h => ?_
    rw [Message.body_eq_ok_iff.mpr ⟨h.1.1, rfl⟩] at hb
    cases hb
  | ok body =>
    obtain ⟨hw, rfl⟩ := Message.body_eq_ok_iff.mp hb
    show (if frameLength e.message.layout ≤ maxFrameLength then _ else _) = _ ↔ _
    by_cases hlen : frameLength e.message.layout ≤ maxFrameLength
    · rw [if_pos hlen, Except.ok.injEq]
      exact ⟨fun h => ⟨⟨hw, hlen⟩, h.symm⟩, fun h => h.2.symm⟩
    · rw [if_neg hlen]
      exact iff_of_false (fun h => by cases h) fun h => hlen h.1.2

/-- A frame is read as the envelope that it holds, when the message is canonical and has
a body. -/
theorem ofFrame_eq_ok_iff {e : Envelope} {f : Frame} :
    ofFrame f = .ok e ↔ (e.message.Canonical ∧ e.message.Writable) ∧ f = e.layout := by
  obtain ⟨target, source, type, body⟩ := f
  rw [ofFrame]
  dsimp only
  constructor
  · intro h
    cases hm : Message.ofBody type body with
    | error error => rw [hm] at h; cases h
    | ok m =>
      rw [hm] at h
      obtain rfl := Except.ok.inj h
      obtain ⟨hcanonical, rfl, hbody⟩ := Message.ofBody_eq_ok_iff.mp hm
      obtain ⟨hwritable, rfl⟩ := Message.body_eq_ok_iff.mp hbody
      exact ⟨⟨hcanonical, hwritable⟩, rfl⟩
  · rintro ⟨⟨hcanonical, hwritable⟩, hf⟩
    cases hf
    have hm : Message.ofBody e.message.typeByte e.message.layout = .ok e.message :=
      Message.ofBody_eq_ok_iff.mpr ⟨hcanonical, rfl, Message.body_eq_ok_iff.mpr ⟨hwritable, rfl⟩⟩
    rw [hm]
    rfl

/-- An envelope is written as the frame that holds it is. -/
theorem encode_eq_ok_iff {e : Envelope} {bs : Bytes} :
    e.encode = .ok bs ↔
      (e.message.Writable ∧ frameLength e.message.layout ≤ maxFrameLength) ∧
        bs = e.layout.encode := by
  rw [encode]
  constructor
  · intro h
    cases hf : e.frame with
    | error error => rw [hf] at h; cases h
    | ok f =>
      rw [hf] at h
      obtain ⟨hfits, rfl⟩ := frame_eq_ok_iff.mp hf
      exact ⟨hfits, (Except.ok.inj h).symm⟩
  · rintro ⟨hfits, rfl⟩
    rw [frame_eq_ok_iff.mpr ⟨hfits, rfl⟩]
    rfl

/-- A body that leaves room for the rest of the frame is one that its length field can
tell of. -/
theorem fits_iff {e : Envelope} :
    e.message.Writable ∧ frameLength e.message.layout ≤ maxFrameLength ↔
      (∀ p, e.message = .setData p → p.number < p.count) ∧ e.message.layout.length ≤ 2040 := by
  have hroom : frameLength e.message.layout ≤ maxFrameLength ↔
      e.message.layout.length ≤ 2040 := by
    simp only [frameLength, maxFrameLength]
    omega
  rw [hroom]
  refine and_congr_left fun hlen => ?_
  cases hm : e.message with
  | setData p =>
    rw [hm] at hlen
    have hdata : p.data.length ≤ 65535 := by
      have hlayout := p.length_layout
      change p.layout.length ≤ 2040 at hlen
      omega
    constructor
    · rintro ⟨hrange, _⟩ q hq
      obtain rfl := Message.setData.inj hq
      exact hrange
    · intro hrange
      exact ⟨hrange p rfl, hdata⟩
  | requestData r => exact iff_of_true trivial fun p hp => by cases hp
  | handshake kind => exact iff_of_true trivial fun p hp => by cases hp
  | event e => exact iff_of_true trivial fun p hp => by cases hp
  | unknown code body => exact iff_of_true trivial fun p hp => by cases hp

/-- **Which envelopes can be sent, and which of them come back.**  An envelope can be
written exactly when its message is no packet whose number is not below its count, and
its body has at most 2040 bytes.  What is written is read back behind any noise without
a start marker and whatever follows it; and the envelope that is read is the one that
was written exactly when its message is canonical. -/
theorem round_trips_iff_canonical (e : Envelope) :
    ((∃ bs, e.encode = .ok bs) ↔
      (∀ p, e.message = .setData p → p.number < p.count) ∧ e.message.layout.length ≤ 2040) ∧
    ∀ bs, e.encode = .ok bs → ∀ before after, startMarker ∉ before →
      (decode (before ++ bs ++ after) = .ok e ↔ e.message.Canonical) := by
  constructor
  · rw [← fits_iff]
    constructor
    · rintro ⟨bs, h⟩
      exact (encode_eq_ok_iff.mp h).1
    · intro hfits
      exact ⟨_, encode_eq_ok_iff.mpr ⟨hfits, rfl⟩⟩
  · intro bs h before after hbefore
    obtain ⟨⟨hwritable, hlen⟩, rfl⟩ := encode_eq_ok_iff.mp h
    rw [← length_content_layout] at hlen
    have hread : decode (before ++ e.layout.encode ++ after) = ofFrame e.layout := by
      rw [decode, Frame.decode_noisy hlen hbefore]
      rfl
    rw [hread, ofFrame_eq_ok_iff]
    exact ⟨fun h => h.1.1, fun hcanonical => ⟨⟨hcanonical, hwritable⟩, rfl⟩⟩

/-- A packet full of markers. -/
def marked : Envelope :=
  ⟨.rootController, .external,
    .setData ⟨⟨[endMarker, 0x02], by decide⟩, .root, 0xF1, 0xF7F0, [startMarker, escapeMarker]⟩⟩

/-- Among noise the packet comes back; an unnamed handshake with the code of a named one
is written too, and does not. -/
theorem round_trips_iff_canonical_marked :
    let noise := [endMarker, 0x00, escapeMarker]
    let unnamed : Envelope := ⟨.rootController, .external, .handshake (.other 0x02)⟩
    startMarker ∉ noise ∧
      (∃ bs, marked.encode = .ok bs ∧ decode (noise ++ bs ++ [startMarker]) = .ok marked) ∧
      ∃ bs, unnamed.encode = .ok bs ∧ decode (noise ++ bs ++ [startMarker]) ≠ .ok unnamed := by
  intro noise unnamed
  have hnoise : startMarker ∉ noise := by decide
  obtain ⟨hmarked, hback⟩ := round_trips_iff_canonical marked
  obtain ⟨hunnamed, hlost⟩ := round_trips_iff_canonical unnamed
  have hrange : ∀ p, marked.message = .setData p → p.number < p.count := by
    intro p hp
    cases hp
    decide
  obtain ⟨bs, hbs⟩ := hmarked.mpr ⟨hrange, by decide⟩
  obtain ⟨cs, hcs⟩ := hunnamed.mpr ⟨nofun, by decide⟩
  refine ⟨hnoise, ⟨bs, hbs, ?_⟩, cs, hcs, ?_⟩
  · exact (hback bs hbs noise [startMarker] hnoise).mpr trivial
  · intro hread
    have hcanonical := (hlost cs hcs noise [startMarker] hnoise).mp hread
    exact hcanonical.2 rfl

/-- **A frame that is read is the only one with that meaning.**  When a frame that is not
too long is read as an envelope, the envelope is sent in this frame again, byte for
byte.  No other frame, of whatever length, is read as the same envelope; and whatever
body is read as a message is the one that the message is written as. -/
theorem frame_of_ofFrame :
    (∀ f e, f.logicalBytes.length + 1 ≤ maxFrameLength → ofFrame f = .ok e → e.frame = .ok f) ∧
    (∀ f g e, ofFrame f = .ok e → ofFrame g = .ok e → f = g) ∧
    (∀ type body m, Message.ofBody type body = .ok m → m.typeByte = type ∧ m.body = .ok body) := by
  refine ⟨?_, ?_, ?_⟩
  · intro f e hlen h
    obtain ⟨⟨_, hwritable⟩, rfl⟩ := ofFrame_eq_ok_iff.mp h
    have hroom : frameLength e.message.layout ≤ maxFrameLength := by
      rw [← length_content_layout, Frame.content, List.length_append]
      exact hlen
    exact frame_eq_ok_iff.mpr ⟨⟨hwritable, hroom⟩, rfl⟩
  · intro f g e hf hg
    rw [(ofFrame_eq_ok_iff.mp hf).2, (ofFrame_eq_ok_iff.mp hg).2]
  · intro type body m h
    exact (Message.ofBody_eq_ok_iff.mp h).2

/-- A handshake is read from its frame, and is sent in this frame again. -/
theorem frame_of_ofFrame_handshake :
    let f : Frame := ⟨.rootController, .external, 0x02, [endMarker]⟩
    let e : Envelope := ⟨.rootController, .external, .handshake (.other endMarker)⟩
    f.logicalBytes.length + 1 ≤ maxFrameLength ∧ ofFrame f = .ok e ∧ e.frame = .ok f ∧
      (∀ g, ofFrame g = .ok e → g = f) ∧ e.message.body = .ok [endMarker] := by
  intro f e
  have hlen : f.logicalBytes.length + 1 ≤ maxFrameLength := by decide
  have hread : ofFrame f = .ok e := by rfl
  obtain ⟨hsent, honly, hbody⟩ := frame_of_ofFrame
  refine ⟨hlen, hread, hsent f e hlen hread, fun g hg => honly g f e hg hread, ?_⟩
  exact (hbody 0x02 [endMarker] e.message (by rfl)).2

end Envelope

end ZoneBus
