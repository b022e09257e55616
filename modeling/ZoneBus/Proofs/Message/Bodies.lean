import ZoneBus.Envelope

/-!
# Bodies that were written

A field is read back from the bytes that it was written as, whatever follows
them; so fields written one after another are read one after another, and a body
that holds nothing else is read back whole.

## Main definitions

* `BodyReader.Reads` — a reader takes some bytes and gives a value.
* `BodyReader.Fills` — the same for a whole body.

## Main results

* `BodyReader.Reads.bind`, `BodyReader.Reads.fill` — one field after another.
* `Message.ofBody_layout` — a packet is read back from its body.
* `Envelope.ofFrame_packetFrame` — so is an envelope with a packet, from its frame.
-/

namespace ZoneBus

/-! ### Reading what was written -/

namespace BodyReader

variable {α β : Type} {x : BodyReader α} {f : α → BodyReader β} {as bs : Bytes} {a : α} {b : β}

/-- Wherever these bytes stand, the reader takes them and gives the value. -/
def Reads (x : BodyReader α) (as : Bytes) (a : α) : Prop :=
  ∀ o rest, x.run ⟨o, as ++ rest⟩ = .ok (a, ⟨o + as.length, rest⟩)

/-- The reader takes these bytes when nothing follows them, and gives the value. -/
def Fills (x : BodyReader α) (as : Bytes) (a : α) : Prop :=
  ∀ o, x.run ⟨o, as⟩ = .ok (a, ⟨o + as.length, []⟩)

theorem run_bind_ok {c c' : Cursor} (h : x.run c = .ok (a, c')) :
    (x >>= f).run c = (f a).run c' := by
  rw [StateT.run_bind, h]
  rfl

/-- A field, and the fields after it. -/
theorem Reads.fill (h : Reads x as a) (h' : Fills (f a) bs b) : Fills (x >>= f) (as ++ bs) b := by
  intro o
  rw [run_bind_ok (h o bs), h' (o + as.length), List.length_append, Nat.add_assoc]

theorem reads_word (type : MessageType) (w : UInt16) : Reads (word type) (wordBytes w) w := by
  intro o rest
  show Except.ok (wordOfBytes (lowByte w) (highByte w), (⟨o + 2, rest⟩ : Cursor)) = _
  rw [wordOfBytes_wordBytes]
  rfl

theorem reads_path (p : Path) : Reads path p.encode p := by
  intro o rest
  show path ⟨o, p.encode ++ rest⟩ = _
  rw [path, Path.decode_encode_append, Path.length_encode]

theorem reads_bytes (type : MessageType) {n : Nat} (h : bs.length = n) :
    Reads (bytes type n) bs bs := by
  intro o rest
  subst h
  show bytes type bs.length ⟨o, bs ++ rest⟩ = _
  rw [bytes, if_neg (by simp), List.take_left, List.drop_left]

/-- At the end nothing is left over. -/
theorem fills_finish (type : MessageType) {g : Unit → BodyReader β} (h : Fills (g ()) [] b) :
    Fills (finish type >>= g) [] b :=
  fun o => (run_bind_ok (x := finish type) (c := ⟨o, []⟩) rfl).trans (h o)

theorem Fills.read (h : Fills x as a) : x.read as = .ok a := by
  rw [BodyReader.read, h 0]
  rfl

end BodyReader

/-! ### Packets -/

namespace Packet

/-- The bytes of a packet, field by field. -/
def layout (p : Packet) : Bytes :=
  p.targetPath.encode ++ (p.sourcePath.encode ++ (wordBytes p.number ++
    (wordBytes p.count ++ (wordBytes (UInt16.ofNat p.data.length) ++ p.data))))

/-- A packet whose number is below the count and whose data the length field can tell
has a body. -/
theorem body_eq {p : Packet} (h : p.number < p.count) (hlen : p.data.length ≤ 65535) :
    p.body = .ok p.layout := by
  rw [body, check, if_pos h, if_pos hlen, layout]
  simp only [List.append_assoc]
  rfl

theorem length_layout (p : Packet) :
    p.layout.length =
      p.targetPath.encodedLength + p.sourcePath.encodedLength + 6 + p.data.length := by
  simp only [layout, List.length_append, Path.length_encode, length_wordBytes]
  omega

/-- A packet is read back field by field. -/
theorem fills_layout {p : Packet} (h : p.number < p.count) (hlen : p.data.length ≤ 65535) :
    BodyReader.Fills BodyReader.packet p.layout p := by
  have hdata : p.data.length = (UInt16.ofNat p.data.length).toNat := by
    rw [UInt16.toNat_ofNat', Nat.mod_eq_of_lt (Nat.lt_succ_of_le hlen)]
  rw [BodyReader.packet, layout]
  refine (BodyReader.reads_path _).fill ?_
  refine (BodyReader.reads_path _).fill ?_
  refine (BodyReader.reads_word _ _).fill ?_
  refine (BodyReader.reads_word _ _).fill ?_
  refine (BodyReader.reads_word _ _).fill ?_
  -- the last field ends the body, so what follows its data is nothing
  rw [← List.append_nil p.data]
  refine (BodyReader.reads_bytes _ (by simpa using hdata)).fill ?_
  refine BodyReader.fills_finish _ fun o => ?_
  rw [check, if_pos h]
  rfl

end Packet

/-- **A packet is read back from its body.** -/
theorem Message.ofBody_layout {p : Packet} (h : p.number < p.count)
    (hlen : p.data.length ≤ 65535) :
    Message.ofBody MessageType.setData.byte p.layout = .ok (.setData p) := by
  rw [Message.ofBody, MessageType.ofByte?_byte]
  dsimp only
  rw [(Packet.fills_layout h hlen).read]
  rfl

/-! ### Envelopes -/

namespace Envelope

/-- The frame of a packet. -/
def packetFrame (target source : Address) (p : Packet) : Frame :=
  ⟨target, source, MessageType.setData.byte, p.layout⟩

/-- A packet whose frame is not too long has one. -/
theorem frame_packet {target source : Address} {p : Packet} (h : p.number < p.count)
    (hlen : p.data.length ≤ 65535) (hframe : frameLength p.layout ≤ maxFrameLength) :
    (Envelope.mk target source (.setData p)).frame = .ok (packetFrame target source p) := by
  rw [frame, Message.body, Packet.body_eq h hlen]
  show (if frameLength p.layout ≤ maxFrameLength then _ else _) = _
  rw [if_pos hframe]
  rfl

theorem length_content_packetFrame (target source : Address) (p : Packet) :
    (packetFrame target source p).content.length = frameLength p.layout := by
  simp only [Frame.content, Frame.logicalBytes, packetFrame, frameLength, List.length_append,
    List.length_cons, Address.length_bytes, List.length_nil]
  omega

/-- **A packet is read back from its frame.** -/
theorem ofFrame_packetFrame {target source : Address} {p : Packet} (h : p.number < p.count)
    (hlen : p.data.length ≤ 65535) :
    ofFrame (packetFrame target source p) = .ok ⟨target, source, .setData p⟩ := by
  rw [ofFrame, packetFrame, Message.ofBody_layout h hlen]
  rfl

end Envelope

end ZoneBus
