import ZoneBus.Proofs.Message.Envelopes

/-!
# Bodies that are cut short or run on

Every field of a body is read in its place, and a field that is not all there is refused at
once: so a body that is cut short is refused at the field that the cut falls into, and a body
that runs on is refused for what stands behind its last field.  Where the cut falls tells the
cause.  The two paths come first, so up to their end it is a path that misses elements, and
from there on a field that needs more bytes than are left.

## Main definitions

* `Message.paths` — the paths that a message names.
* `BodyReader.CutCause` — why a body is refused that is cut short.
* `BodyReader.Cuts`, `BodyReader.Strict` — a reader refuses what is cut short, and what runs
  on as well.
* `Message.Whole` — so does a message type.

## Main results

* `BodyReader.Reads.strict` — one field after another.
* `Message.whole_of_ofBody` — a body that is read is whole.
* `Envelope.ofFrame_cut` — **no body is read that is cut short or runs on.**
-/

namespace ZoneBus

/-- The paths that a message names, in the order in which they stand in its body. -/
def Message.paths : Message → List Path
  | setData packet => [packet.targetPath, packet.sourcePath]
  | requestData request => [request.targetPath, request.sourcePath]
  | .event e => [e.targetPath, e.sourcePath]
  | handshake _ => []
  | unknown _ _ => []

namespace BodyReader

/-! ### Readers that refuse -/

/-- Why a body is refused that is cut short after some bytes: up to the end of its paths for
a path, and behind it for a field that needs more bytes than there are up to the cut. -/
inductive CutCause (type : MessageType) (pathEnd cut : Nat) : ProtocolError → Prop where
  /-- The cut falls before the end of the paths. -/
  | path {declared available : Nat} (h : cut < pathEnd) :
      CutCause type pathEnd cut (.malformedPath declared available)
  /-- The cut falls behind the paths. -/
  | field {needed offset available : Nat} (h : pathEnd ≤ cut) (hcut : offset + available = cut)
      (hfew : available < needed) :
      CutCause type pathEnd cut (.malformedPayload (.truncated type needed offset available))

variable {α β : Type} {x : BodyReader α} {f : α → BodyReader β} {as bs : Bytes} {a : α} {b : β}
  {type : MessageType} {pathEnd o : Nat}

/-- At this offset, the reader refuses every beginning of these bytes that is not all of
them. -/
def Cuts (type : MessageType) (pathEnd : Nat) (x : BodyReader α) (o : Nat) (as : Bytes) : Prop :=
  ∀ front rest, as = front ++ rest → rest ≠ [] →
    ∃ e, x.run ⟨o, front⟩ = .error e ∧ CutCause type pathEnd (o + front.length) e

/-- At this offset, the reader refuses these bytes when they are cut short, and when anything
stands behind them. -/
structure Strict (type : MessageType) (pathEnd : Nat) (x : BodyReader α) (o : Nat) (as : Bytes) :
    Prop where
  /-- Cut short. -/
  cut : Cuts type pathEnd x o as
  /-- With something behind them. -/
  trailing : ∀ extra, extra ≠ [] →
    x.run ⟨o, as ++ extra⟩ = .error (.malformedPayload (.trailing type extra.length))

theorem run_bind_error {c : Cursor} {e : ProtocolError} (h : x.run c = .error e) :
    (x >>= f).run c = .error e := by
  rw [StateT.run_bind, h]
  rfl

/-- **A field, and the fields after it.** -/
theorem Reads.strict (h : Reads x as a) (hx : Cuts type pathEnd x o as)
    (hf : Strict type pathEnd (f a) (o + as.length) bs) :
    Strict type pathEnd (x >>= f) o (as ++ bs) where
  cut := by
    intro front rest hsplit hne
    by_cases hlength : front.length < as.length
    · -- the cut falls into the field
      obtain ⟨missing, rfl⟩ : front <+: as :=
        List.prefix_of_prefix_length_le ⟨rest, hsplit.symm⟩ (List.prefix_append as bs)
          (Nat.le_of_lt hlength)
      have hmissing : missing ≠ [] := by
        rintro rfl
        simp at hlength
      obtain ⟨e, hrun, hcause⟩ := hx front missing rfl hmissing
      exact ⟨e, run_bind_error hrun, hcause⟩
    · -- the field is all there, and the cut falls behind it
      obtain ⟨more, rfl⟩ : as <+: front :=
        List.prefix_of_prefix_length_le (List.prefix_append as bs) ⟨rest, hsplit.symm⟩
          (Nat.not_lt.mp hlength)
      rw [List.append_assoc] at hsplit
      obtain ⟨e, hrun, hcause⟩ := hf.cut more rest (List.append_cancel_left hsplit) hne
      rw [Nat.add_assoc, ← List.length_append] at hcause
      exact ⟨e, (run_bind_ok (h o more)).trans hrun, hcause⟩
  trailing := by
    intro extra hne
    rw [List.append_assoc, run_bind_ok (h o (bs ++ extra))]
    exact hf.trailing extra hne

/-- The last field. -/
theorem Reads.strict_last (h : Reads x as a) (hx : Cuts type pathEnd x o as)
    (hf : Strict type pathEnd (f a) (o + as.length) []) : Strict type pathEnd (x >>= f) o as := by
  have hall := h.strict hx hf
  rwa [List.append_nil] at hall

/-! ### Fields -/

theorem cuts_path (p : Path) (h : o + p.encodedLength ≤ pathEnd) :
    Cuts type pathEnd path o p.encode := by
  intro front rest hsplit hne
  have hlength := congrArg List.length hsplit
  rw [Path.length_encode, List.length_append] at hlength
  have hrest : 0 < rest.length := List.length_pos_iff.mpr hne
  have hcut : o + front.length < pathEnd := by omega
  cases front with
  | nil => exact ⟨_, rfl, .path hcut⟩
  | cons declared elements =>
    obtain ⟨rfl, helements⟩ : UInt8.ofNat p.length = declared ∧ p.elements = elements ++ rest :=
      List.cons.inj hsplit
    have hdeclared : (UInt8.ofNat p.length).toNat = p.length := by
      have hle : p.length ≤ 255 := p.length_le
      rw [UInt8.toNat_ofNat']
      omega
    have hshort : elements.length < (UInt8.ofNat p.length).toNat := by
      rw [hdeclared, Path.length, helements, List.length_append]
      omega
    refine ⟨.malformedPath (UInt8.ofNat p.length).toNat elements.length, ?_, .path hcut⟩
    show path ⟨o, UInt8.ofNat p.length :: elements⟩ = _
    rw [path, Path.decode, if_pos hshort]

/-- A field of some bytes is refused that has fewer. -/
theorem cuts_of_truncated {n : Nat} (h : pathEnd ≤ o) (hlength : as.length = n)
    (hx : ∀ front : Bytes, front.length < n →
      x.run ⟨o, front⟩ = .error (truncated type n ⟨o, front⟩)) :
    Cuts type pathEnd x o as := by
  intro front rest hsplit hne
  have hrest : 0 < rest.length := List.length_pos_iff.mpr hne
  have hfew : front.length < n := by
    rw [← hlength, hsplit, List.length_append]
    omega
  exact ⟨_, hx front hfew, .field (Nat.le_add_right_of_le h) rfl hfew⟩

theorem cuts_byte (b : UInt8) (h : pathEnd ≤ o) : Cuts type pathEnd (byte type) o [b] := by
  refine cuts_of_truncated h rfl fun front hfew => ?_
  match front, hfew with
  | [], _ => rfl

theorem cuts_word (w : UInt16) (h : pathEnd ≤ o) :
    Cuts type pathEnd (word type) o (wordBytes w) := by
  refine cuts_of_truncated h (length_wordBytes w) fun front hfew => ?_
  match front, hfew with
  | [], _ => rfl
  | [_], _ => rfl

theorem cuts_bytes {n : Nat} (hlength : as.length = n) (h : pathEnd ≤ o) :
    Cuts type pathEnd (bytes type n) o as :=
  cuts_of_truncated h hlength fun _ hfew => if_pos hfew

/-- At the end nothing can be cut, and nothing may follow. -/
theorem strict_finish {g : Unit → BodyReader β} :
    Strict type pathEnd (finish type >>= g) o [] where
  cut := by
    intro front rest hsplit hne
    exact absurd (List.append_eq_nil_iff.mp hsplit.symm).2 hne
  trailing := by
    intro extra hne
    refine run_bind_error ?_
    show finish type ⟨o, extra⟩ = _
    cases extra with
    | nil => exact absurd rfl hne
    | cons b extra => rfl

/-- The two paths at the beginning of a body, and the fields after them. -/
theorem strict_paths (target source : Path) {g : Path → Path → BodyReader β}
    (hg : ∀ o, (target.encode ++ source.encode).length ≤ o →
      Strict type (target.encode ++ source.encode).length (g target source) o bs) :
    Strict type (target.encode ++ source.encode).length
      (path >>= fun t => path >>= fun s => g t s) 0
      (target.encode ++ (source.encode ++ bs)) := by
  have hlength : (target.encode ++ source.encode).length =
      target.encodedLength + source.encodedLength := by
    rw [List.length_append, Path.length_encode, Path.length_encode]
  refine (reads_path target).strict (cuts_path target (by omega)) ?_
  refine (reads_path source).strict (cuts_path source ?_) (hg _ ?_)
  · rw [hlength, Path.length_encode]
    omega
  · rw [List.length_append]
    omega

/-! ### Whole bodies -/

theorem strict_packet {p : Packet} (hlen : p.data.length ≤ 65535) :
    Strict .setData (p.targetPath.encode ++ p.sourcePath.encode).length packet 0 p.layout := by
  have hdata : p.data.length = (UInt16.ofNat p.data.length).toNat := by
    rw [UInt16.toNat_ofNat', Nat.mod_eq_of_lt (Nat.lt_succ_of_le hlen)]
  refine strict_paths p.targetPath p.sourcePath fun o ho => ?_
  refine (reads_word _ _).strict (cuts_word _ ho) ?_
  refine (reads_word _ _).strict (cuts_word _ (by omega)) ?_
  refine (reads_word _ _).strict (cuts_word _ (by omega)) ?_
  exact (reads_bytes _ hdata).strict_last (cuts_bytes hdata (by omega)) strict_finish

theorem strict_dataRequest (r : DataRequest) :
    Strict .requestData (r.targetPath.encode ++ r.sourcePath.encode).length dataRequest 0
      r.body := by
  rw [DataRequest.body, List.append_assoc]
  refine strict_paths r.targetPath r.sourcePath fun o ho => ?_
  exact (reads_byte _ _).strict_last (cuts_byte _ ho) strict_finish

theorem strict_event (e : Event) :
    Strict .event (e.targetPath.encode ++ e.sourcePath.encode).length event 0 e.body := by
  simp only [Event.body, List.append_assoc]
  refine strict_paths e.targetPath e.sourcePath fun o ho => ?_
  refine (reads_word _ _).strict (cuts_word _ ho) ?_
  refine (reads_word _ _).strict (cuts_word _ (by omega)) ?_
  refine (reads_word _ _).strict (cuts_word _ (by omega)) ?_
  exact (reads_byte _ _).strict_last (cuts_byte _ (by omega)) strict_finish

theorem strict_handshake (code : UInt8) : Strict .handshake 0 handshake 0 [code] :=
  (reads_byte _ _).strict_last (cuts_byte _ (Nat.le_refl 0)) strict_finish

theorem read_error {c : ProtocolError} {body : Bytes} (h : x.run ⟨0, body⟩ = .error c) :
    x.read body = .error c := by
  rw [read, h]
  rfl

end BodyReader

/-! ### Messages -/

theorem MessageType.byte_injective {s t : MessageType} (h : s.byte = t.byte) : s = t := by
  have hread := congrArg ofByte? h
  rw [ofByte?_byte, ofByte?_byte] at hread
  exact Option.some.inj hread

namespace Message

open BodyReader

/-- How many bytes of the body of a message its paths take. -/
def pathEnd (m : Message) : Nat := (m.paths.flatMap Path.encode).length

/-- Under a type, a body is refused when it is cut short, and when it runs on. -/
structure Whole (type : MessageType) (pathEnd : Nat) (body : Bytes) : Prop where
  /-- Cut short. -/
  cut : ∀ front rest, body = front ++ rest → rest ≠ [] →
    ∃ e, ofBody type.byte front = .error e ∧ CutCause type pathEnd front.length e
  /-- Running on. -/
  trailing : ∀ extra, extra ≠ [] → ofBody type.byte (body ++ extra) =
    .error (.malformedPayload (.trailing type extra.length))

/-- A type with a strict reader. -/
theorem whole_of_strict {α : Type} {type : MessageType} {x : BodyReader α} {g : α → Message}
    {k : Nat} {body : Bytes} (hread : ∀ bs, ofBody type.byte bs = (x.read bs).map g)
    (h : Strict type k x 0 body) : Whole type k body where
  cut := by
    intro front rest hsplit hne
    obtain ⟨e, hrun, hcause⟩ := h.cut front rest hsplit hne
    rw [Nat.zero_add] at hcause
    refine ⟨e, ?_, hcause⟩
    rw [hread, read_error hrun]
    rfl
  trailing := by
    intro extra hne
    rw [hread, read_error (h.trailing extra hne)]
    rfl

/-- **A body that is read is whole.** -/
theorem whole_of_ofBody {type : MessageType} {body : Bytes} {m : Message}
    (h : ofBody type.byte body = .ok m) : Whole type m.pathEnd body := by
  obtain ⟨hcanonical, htype, hbody⟩ := ofBody_eq_ok_iff.mp h
  obtain ⟨hwritable, rfl⟩ := body_eq_ok_iff.mp hbody
  have hpaths : ∀ target source : Path, ([target, source].flatMap Path.encode).length =
      (target.encode ++ source.encode).length := by
    intro target source
    simp
  cases m with
  | setData p =>
    obtain rfl : MessageType.setData = type := MessageType.byte_injective htype
    rw [pathEnd, paths, hpaths]
    exact whole_of_strict (fun _ => rfl) (strict_packet hwritable.2)
  | requestData r =>
    obtain rfl : MessageType.requestData = type := MessageType.byte_injective htype
    rw [pathEnd, paths, hpaths]
    exact whole_of_strict (fun _ => rfl) (strict_dataRequest r)
  | handshake kind =>
    obtain rfl : MessageType.handshake = type := MessageType.byte_injective htype
    exact whole_of_strict (fun _ => rfl) (strict_handshake kind.byte)
  | event e =>
    obtain rfl : MessageType.event = type := MessageType.byte_injective htype
    rw [pathEnd, paths, hpaths]
    exact whole_of_strict (fun _ => rfl) (strict_event e)
  | unknown code body =>
    -- no message that is left as it is has the type of an interpreted one
    have hnone := MessageType.ofByte?_eq_none_iff.mpr hcanonical
    change code = type.byte at htype
    rw [htype, MessageType.ofByte?_byte] at hnone
    cases hnone

end Message

namespace Envelope

/-- **No body is read that is cut short or runs on.**  Let a frame of one of the four types
be read as an envelope.  With only a beginning of its body, and not all of it, the frame is
refused: for a malformed path when the cut falls before the end of the two paths, and
otherwise for a field of this type that needs more bytes than are left up to the cut.  With
anything behind its body, it is refused for as many bytes as are left over. -/
theorem ofFrame_cut {type : MessageType} {target source : Address} {body : Bytes} {e : Envelope}
    (h : ofFrame ⟨target, source, type.byte, body⟩ = .ok e) :
    (∀ front rest, body = front ++ rest → rest ≠ [] →
      (front.length < (e.message.paths.flatMap Path.encode).length →
        ∃ declared available, ofFrame ⟨target, source, type.byte, front⟩ =
          .error (.malformedPath declared available)) ∧
      ((e.message.paths.flatMap Path.encode).length ≤ front.length →
        ∃ needed offset available, ofFrame ⟨target, source, type.byte, front⟩ =
            .error (.malformedPayload (.truncated type needed offset available)) ∧
          offset + available = front.length ∧ available < needed)) ∧
    ∀ extra, extra ≠ [] → ofFrame ⟨target, source, type.byte, body ++ extra⟩ =
      .error (.malformedPayload (.trailing type extra.length)) := by
  have hrefused : ∀ {bs : Bytes} {error : ProtocolError},
      Message.ofBody type.byte bs = .error error →
        ofFrame ⟨target, source, type.byte, bs⟩ = .error error := by
    intro bs error hbs
    rw [ofFrame, hbs]
    rfl
  obtain ⟨m, hm, hmessage⟩ : ∃ m, Message.ofBody type.byte body = .ok m ∧ e.message = m := by
    rw [ofFrame] at h
    cases hm : Message.ofBody type.byte body with
    | error error => rw [hm] at h; cases h
    | ok m =>
      rw [hm] at h
      obtain rfl := Except.ok.inj h
      exact ⟨m, rfl, rfl⟩
  have hwhole := Message.whole_of_ofBody hm
  rw [hmessage]
  refine ⟨fun front rest hsplit hne => ?_, fun extra hne => hrefused (hwhole.trailing extra hne)⟩
  obtain ⟨error, herror, hcause⟩ := hwhole.cut front rest hsplit hne
  rw [Message.pathEnd] at hcause
  rw [hrefused herror]
  cases hcause with
  | path hbefore =>
    exact ⟨fun _ => ⟨_, _, rfl⟩, fun hbehind => absurd hbefore (Nat.not_lt.mpr hbehind)⟩
  | field hbehind hoffset hfew =>
    exact ⟨fun hbefore => absurd hbehind (Nat.not_le.mpr hbefore),
      fun _ => ⟨_, _, _, rfl, hoffset, hfew⟩⟩

/-- A packet whose data is as long as the two bytes in front of it say.  Without its last
byte it is refused for its data, with the first path alone for the second path, and with one
more byte for that byte. -/
theorem ofFrame_cut_packet :
    let body : Bytes := [1, 9, 0, 0, 0, 1, 0, 2, 0, 5, 6]
    let frame (body : Bytes) : Frame := ⟨.rootController, .external, MessageType.setData.byte, body⟩
    let packet : Packet := ⟨⟨[9], by decide⟩, .root, 0, 1, [5, 6]⟩
    ofFrame (frame body) = .ok ⟨.rootController, .external, .setData packet⟩ ∧
      (∃ needed offset available, ofFrame (frame (body.take 10)) =
          .error (.malformedPayload (.truncated .setData needed offset available)) ∧
        offset + available = 10 ∧ available < needed) ∧
      (∃ declared available, ofFrame (frame (body.take 2)) =
        .error (.malformedPath declared available)) ∧
      ofFrame (frame (body ++ [7])) = .error (.malformedPayload (.trailing .setData 1)) := by
  intro body frame packet
  have hread : ofFrame (frame body) = .ok ⟨.rootController, .external, .setData packet⟩ := by rfl
  obtain ⟨hcut, htrailing⟩ := ofFrame_cut hread
  refine ⟨hread, ?_, ?_, htrailing [7] (by decide)⟩
  · exact (hcut (body.take 10) (body.drop 10) (by rfl) (by decide)).2 (by decide)
  · exact (hcut (body.take 2) (body.drop 2) (by rfl) (by decide)).1 (by decide)

end Envelope

end ZoneBus
