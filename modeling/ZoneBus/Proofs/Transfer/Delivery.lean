import ZoneBus.Proofs.Frame.Scanning
import ZoneBus.Proofs.Message.Bodies
import ZoneBus.Proofs.Reassembly.Sequence
import ZoneBus.Proofs.Transfer.Packets

/-!
# A value arrives as it was sent

The packets of a value all have frames.  A receiver that gets these frames, in
chunks of any size, finds the packets in them and puts the value together at the
path that they name: nothing is published before the last packet, and the last
one publishes the value, whatever the receiver held before.

## Main definitions

* `BufferStore.takeResults` — a receiver takes what comes out of a decoder.

## Main results

* `BufferStore.takeResults_numbered` — the packets of a value put it together.
* `transfer_delivered` — **a value arrives as it was sent.**
-/

namespace ZoneBus

/-! ### The frames of packets -/

/-- A packet is numbered within its count and is not too long. -/
def Packet.Fits (p : Packet) : Prop := p.number < p.count ∧ p.data.length ≤ packetSize

theorem fits_of_mem_numbered (targetPath sourcePath : Path) {count : Nat} (hn : count ≤ 65535) :
    ∀ {pieces : List Bytes} {i : Nat}, i + pieces.length ≤ count →
      (∀ piece ∈ pieces, piece.length ≤ packetSize) →
      ∀ p ∈ numbered targetPath sourcePath count i pieces, p.Fits := by
  intro pieces
  induction pieces with
  | nil => intro i _ _ p hm; cases hm
  | cons piece pieces ih =>
    intro i hi hsize
    rw [List.length_cons] at hi
    rw [List.forall_mem_cons] at hsize
    rw [numbered, List.forall_mem_cons]
    refine ⟨⟨ofNat_lt_ofNat (by omega) hn, hsize.1⟩, ?_⟩
    exact ih (by omega) hsize.2

namespace Packet

variable {p : Packet}

theorem Fits.length_le (h : p.Fits) : p.data.length ≤ 65535 :=
  Nat.le_trans h.2 (by decide)

/-- Two paths and the data of a packet are short enough for a frame. -/
theorem Fits.frameLength_le (h : p.Fits) : Envelope.frameLength p.layout ≤ maxFrameLength := by
  have ht : p.targetPath.length ≤ 255 := p.targetPath.length_le
  have hs : p.sourcePath.length ≤ 255 := p.sourcePath.length_le
  have hd : p.data.length ≤ 64 := h.2
  rw [Envelope.frameLength, length_layout, Path.encodedLength, Path.encodedLength, maxFrameLength]
  omega

end Packet

/-- Every packet has a frame. -/
theorem encode_packet {p : Packet} (h : p.Fits) (target source : Address) :
    (Envelope.mk target source (.setData p)).encode =
      .ok (Envelope.packetFrame target source p).encode := by
  rw [Envelope.encode, Envelope.frame_packet h.1 h.length_le h.frameLength_le]
  rfl

/-- However the frames of packets are cut, a decoder finds them all and nothing else. -/
theorem receive_packets {packets : List Packet} (h : ∀ p ∈ packets, p.Fits)
    (target source : Address) {arrived : List Bytes}
    (hc : arrived.flatten =
      (packets.map fun p => (Envelope.packetFrame target source p).encode).flatten) :
    (Decoder.fresh.receive arrived).1 =
      packets.map fun p => .ok (Envelope.packetFrame target source p) := by
  have hframes : ∀ f ∈ packets.map (Envelope.packetFrame target source),
      f.content.length ≤ maxFrameLength := by
    intro f hf
    obtain ⟨p, hp, rfl⟩ := List.mem_map.mp hf
    rw [Envelope.length_content_packetFrame]
    exact (h p hp).frameLength_le
  have hfeed := Scanner.feed_encode_all 0 hframes
  rw [List.map_map, List.map_map] at hfeed
  rw [Decoder.fresh, Decoder.receive_eq, hc]
  exact congrArg Prod.fst hfeed

/-! ### Taking packets -/

namespace BufferStore

/-- A receiver takes what comes out of a decoder, each result at its time: every
packet goes to the path that it names.  The answers are those of the buffers. -/
def takeResults (s : BufferStore) :
    List (Instant × FrameResult) → List (Except BufferError (Option Bytes)) × BufferStore
  | [] => ([], s)
  | (now, result) :: rest =>
    match result.bind Envelope.ofFrame with
    | .ok ⟨_, source, .setData p⟩ =>
      let (answer, s') := s.writePacket now source p.valuePath p.number p.count p.data
      let (answers, s'') := takeResults s' rest
      (answer :: answers, s'')
    | _ => takeResults s rest

theorem takeResults_cons {p : Packet} (h : p.Fits) (s : BufferStore) (target source : Address)
    (now : Instant) (rest : List (Instant × FrameResult)) :
    let taken := s.writePacket now source p.valuePath p.number p.count p.data
    s.takeResults ((now, .ok (Envelope.packetFrame target source p)) :: rest) =
      (taken.1 :: (takeResults taken.2 rest).1, (takeResults taken.2 rest).2) := by
  have hframe : (Except.ok (Envelope.packetFrame target source p) : FrameResult).bind
      Envelope.ofFrame = .ok ⟨target, source, .setData p⟩ :=
    Envelope.ofFrame_packetFrame h.1 h.length_le
  rw [takeResults, hframe]

/-- **The packets of a value put it together.**  From any packet on, with what came
before it gathered, nothing is published until the last one, which publishes all. -/
theorem takeResults_numbered {targetPath sourcePath path : Path} {target source : Address}
    {count : Nat} (hn : count ≤ 65535)
    (hpath : path = if sourcePath.isRoot then targetPath else sourcePath) :
    ∀ {pieces : List Bytes} {i : Nat} {gathered : Bytes} {s : BufferStore}
      {stamped : List (Instant × FrameResult)}, pieces ≠ [] → i + pieces.length = count →
      (∀ piece ∈ pieces, piece.length ≤ packetSize) →
      (s.bufferOf source path).Ready gathered i count →
      stamped.map Prod.snd = (numbered targetPath sourcePath count i pieces).map
        (fun p => .ok (Envelope.packetFrame target source p)) →
      (s.takeResults stamped).1 =
          List.replicate (pieces.length - 1) (.ok none) ++
            [.ok (some (gathered ++ pieces.flatten))] ∧
        (s.takeResults stamped).2.read source path = some (gathered ++ pieces.flatten) ∧
        ∀ k < pieces.length,
          (s.takeResults (stamped.take k)).2.read source path = s.read source path := by
  intro pieces
  induction pieces with
  | nil => exact fun h => absurd rfl h
  | cons piece pieces ih =>
    intro i gathered s stamped _ hi hsize hready hstamped
    rw [List.forall_mem_cons] at hsize
    rw [List.length_cons] at hi
    -- the first result is the frame of the packet with this piece
    rw [numbered, List.map_cons, List.map_eq_cons_iff] at hstamped
    obtain ⟨⟨now, result⟩, rest, rfl, hresult, hrest⟩ := hstamped
    dsimp only at hresult
    subst hresult
    have hfits : Packet.Fits ⟨targetPath, sourcePath, UInt16.ofNat i, UInt16.ofNat count, piece⟩ :=
      ⟨ofNat_lt_ofNat (by omega) hn, hsize.1⟩
    have htook := writePacket_ready hready hn (by omega) now piece
    have hcons := fun more => takeResults_cons hfits s target source now more
    dsimp only [Packet.valuePath] at hcons htook
    rw [← hpath] at hcons
    generalize s.writePacket now source path (UInt16.ofNat i) (UInt16.ofNat count) piece = taken
      at htook hcons
    -- the piece is the last one and completes the value, or the transfer goes on
    cases pieces with
    | nil =>
      obtain rfl := List.map_eq_nil_iff.mp hrest
      obtain ⟨hanswer, hread⟩ := htook.completes hi
      rw [hcons, List.flatten_singleton]
      refine ⟨congrArg (fun answer => [answer]) hanswer, ?_, fun k hk => ?_⟩
      · exact (read_eq taken.2 source path).trans hread
      · rw [Nat.lt_one_iff.mp hk]
        rfl
    | cons piece' pieces =>
      rw [List.length_cons] at hi
      obtain ⟨hanswer, hopen, hread⟩ := htook.goesOn (by omega)
      have hnext := ih (i := i + 1) (s := taken.2) (List.cons_ne_nil _ _)
        (by rw [List.length_cons]; omega) hsize.2 (Or.inr ⟨Nat.succ_ne_zero i, hopen⟩) hrest
      obtain ⟨hanswers, hvalue, hbefore⟩ := hnext
      rw [hcons, hanswers, hvalue, hanswer, List.flatten_cons, List.append_assoc]
      refine ⟨rfl, rfl, fun k hk => ?_⟩
      cases k with
      | zero => rfl
      | succ k =>
        have hk' : k < (piece' :: pieces).length := Nat.lt_of_succ_lt_succ hk
        rw [List.take_succ_cons, hcons]
        exact (hbefore k hk').trans ((read_eq _ _ _).trans (hread.trans (read_eq _ _ _).symm))

end BufferStore

/-! ### From the sender to the receiver -/

/-- **A value arrives as it was sent.**  Every packet of a value has a wire form.  Cut
the concatenated wire forms into chunks in any way and give them to a fresh decoder,
and hand what comes out, at any times, to a receiver that holds anything: each packet
is answered, nothing is published before the last one, the last one publishes the
value, and the value is what is read then. -/
theorem transfer_delivered {targetPath sourcePath : Path} {data : Bytes} {packets : List Packet}
    (h : transfer targetPath sourcePath data = .ok packets) (target source : Address)
    (store : BufferStore) :
    packets ≠ [] ∧ ∃ written : List Bytes,
      packets.map (fun p => (Envelope.mk target source (.setData p)).encode) =
          written.map .ok ∧
        ∀ arrived : List Bytes, arrived.flatten = written.flatten →
          ∀ stamped : List (Instant × FrameResult),
            stamped.map Prod.snd = (Decoder.fresh.receive arrived).1 →
            let path := if sourcePath.isRoot then targetPath else sourcePath
            (store.takeResults stamped).1 =
                List.replicate (packets.length - 1) (.ok none) ++ [.ok (some data)] ∧
              (store.takeResults stamped).2.read source path = some data ∧
              ∀ k < packets.length,
                (store.takeResults (stamped.take k)).2.read source path =
                  store.read source path := by
  obtain ⟨hcount, rfl⟩ := transfer_eq_ok h
  have hne := chunks_ne_nil data
  have hsize := length_of_mem_chunks data
  have hfits := fits_of_mem_numbered targetPath sourcePath (i := 0) hcount
    (Nat.le_of_eq (Nat.zero_add _)) hsize
  have hlength := length_numbered targetPath sourcePath (chunks data).length (chunks data) 0
  refine ⟨fun hnil => ?_, (numbered targetPath sourcePath (chunks data).length 0
    (chunks data)).map fun p => (Envelope.packetFrame target source p).encode, ?_, ?_⟩
  · rw [hnil] at hlength
    exact hne (List.length_eq_zero_iff.mp hlength.symm)
  · rw [List.map_map]
    exact List.map_congr_left fun p hp => encode_packet (hfits p hp) target source
  · intro arrived harrived stamped hstamped path
    rw [receive_packets hfits target source harrived] at hstamped
    have hall := BufferStore.takeResults_numbered (s := store) hcount
      (show path = _ from rfl) hne (Nat.zero_add _) hsize (Or.inl ⟨rfl, rfl⟩) hstamped
    rw [List.nil_append, chunks_flatten] at hall
    rw [hlength]
    exact hall

/-- A value of marker bytes that needs two packets. -/
def markers : Bytes := List.replicate 65 startMarker

theorem transfer_markers : transfer .root .root markers =
    .ok (numbered .root .root 2 0 [List.replicate 64 startMarker, [startMarker]]) := by
  have hmore : markers.drop packetSize = startMarker :: [] := rfl
  have hlast : ([startMarker] : Bytes).drop packetSize = [] := rfl
  rw [transfer, chunks_more hmore, chunks_last hlast]
  rfl

/-- It arrives one byte at a time. -/
theorem transfer_delivered_markers : ∃ (arrived : List Bytes)
    (stamped : List (Instant × FrameResult)),
    (∀ chunk ∈ arrived, chunk.length = 1) ∧
      stamped.map Prod.snd = (Decoder.fresh.receive arrived).1 ∧
      (BufferStore.takeResults .empty stamped).1 = [.ok none, .ok (some markers)] ∧
      (BufferStore.takeResults .empty stamped).2.read .rootController .root = some markers := by
  obtain ⟨_, written, _, hall⟩ :=
    transfer_delivered transfer_markers .external .rootController .empty
  let arrived := written.flatten.map fun b => [b]
  have hone : ∀ chunk ∈ arrived, chunk.length = 1 := by
    intro chunk hm
    obtain ⟨b, _, rfl⟩ := List.mem_map.mp hm
    rfl
  have hcut : arrived.flatten = written.flatten := List.flatMap_singleton' _
  have hstamped : ((Decoder.fresh.receive arrived).1.map fun r => ((0 : Instant), r)).map
      Prod.snd = (Decoder.fresh.receive arrived).1 := by
    rw [List.map_map]
    exact List.map_id _
  obtain ⟨hanswers, hread, _⟩ := hall arrived hcut _ hstamped
  exact ⟨arrived, _, hone, hstamped, hanswers, hread⟩

end ZoneBus
