import ZoneBus.Proofs.Transfer.Delivery

/-!
# How a value is split

A value of any size is split into pieces of 64 bytes from the front, and the last piece is
what is left; the empty value is one empty piece.  So there are as many pieces as 64 goes
into the size of the value, rounded up, and at least one.  When they can be numbered in
sixteen bits, there is a packet for each, and every packet fits into a frame, whatever its
paths are and whoever sends it.

## Main definitions

* `pieceCount` — into how many pieces a value is split.

## Main results

* `chunks_eq_map_range` — the pieces of a value, by their places in it.
* `transfer_eq_map_range` — its packets, or why it has none.
* `transfer_split` — **how a value is split.**
-/

namespace ZoneBus

/-! ### Pieces by their places -/

/-- Into how many pieces a value of some size is split. -/
def pieceCount (length : Nat) : Nat := max 1 ((length + 63) / packetSize)

/-- The pieces of a value, by their places in it. -/
theorem chunks_eq_map_range (data : Bytes) :
    chunks data = (List.range (pieceCount data.length)).map fun i =>
      (data.drop (packetSize * i)).take packetSize := by
  induction data using chunks.induct with
  | case1 data h =>
    have hlength : data.length ≤ packetSize := List.drop_eq_nil_iff.mp h
    have hcount : pieceCount data.length = 1 := by
      simp only [pieceCount, packetSize] at hlength ⊢
      omega
    rw [chunks_last h, hcount]
    simp [List.take_of_length_le hlength]
  | case2 data b rest h ih =>
    have hlength : (data.drop packetSize).length = rest.length + 1 := by rw [h, List.length_cons]
    have hcount : pieceCount data.length = pieceCount (rest.length + 1) + 1 := by
      simp only [List.length_drop, pieceCount, packetSize] at hlength ⊢
      omega
    -- the other pieces are the pieces of what stands behind the first
    rw [chunks_more h, ih, hcount, List.range_succ_eq_map, List.map_cons, List.map_map, ← h]
    simp [Function.comp_def, hlength, Nat.mul_add, Nat.add_comm]

theorem length_chunks (data : Bytes) : (chunks data).length = pieceCount data.length := by
  rw [chunks_eq_map_range, List.length_map, List.length_range]

/-- How many bytes a value may have for its packets to be numbered. -/
theorem pieceCount_le_iff {length : Nat} :
    pieceCount length ≤ maxPacketCount ↔ length ≤ 64 * 65535 := by
  simp only [pieceCount, packetSize, maxPacketCount]
  omega

/-! ### Packets by their places -/

/-- The packet at a place in the transfer of a value. -/
def packetAt (targetPath sourcePath : Path) (data : Bytes) (i : Nat) : Packet :=
  ⟨targetPath, sourcePath, UInt16.ofNat i, UInt16.ofNat (pieceCount data.length),
    (data.drop (packetSize * i)).take packetSize⟩

/-- **The packets of a value**, or why it has none. -/
theorem transfer_eq_map_range (targetPath sourcePath : Path) (data : Bytes) :
    transfer targetPath sourcePath data =
      if pieceCount data.length ≤ maxPacketCount then
        .ok ((List.range (pieceCount data.length)).map (packetAt targetPath sourcePath data))
      else .error (.malformedPayload (.tooManyPackets data.length (pieceCount data.length))) := by
  rw [transfer, length_chunks, chunks_eq_map_range]
  refine ite_congr rfl (fun _ => congrArg Except.ok ?_) fun _ => rfl
  exact List.ext_getElem (by simp) (by simp [packetAt])

section Places

variable {targetPath sourcePath : Path} {data : Bytes} {i : Nat}

theorem toNat_number_packetAt (hn : pieceCount data.length ≤ maxPacketCount)
    (hi : i < pieceCount data.length) :
    (packetAt targetPath sourcePath data i).number.toNat = i :=
  toNat_ofNat (Nat.le_trans (Nat.le_of_lt hi) hn)

theorem toNat_count_packetAt (hn : pieceCount data.length ≤ maxPacketCount) :
    (packetAt targetPath sourcePath data i).count.toNat = pieceCount data.length :=
  toNat_ofNat hn

/-- Only the last packet has less than its share of the bytes. -/
theorem length_data_packetAt : (packetAt targetPath sourcePath data i).data.length =
    min 64 (data.length - 64 * i) := by
  rw [packetAt, List.length_take, List.length_drop, packetSize]

theorem fits_packetAt (hn : pieceCount data.length ≤ maxPacketCount)
    (hi : i < pieceCount data.length) : (packetAt targetPath sourcePath data i).Fits := by
  refine ⟨ofNat_lt_ofNat hi hn, ?_⟩
  rw [length_data_packetAt]
  exact Nat.min_le_left _ _

theorem isFirst_packetAt (hn : pieceCount data.length ≤ maxPacketCount)
    (hi : i < pieceCount data.length) :
    (packetAt targetPath sourcePath data i).isFirst = true ↔ i = 0 := by
  rw [Packet.isFirst, beq_iff_eq]
  exact ofNat_eq_zero (Nat.le_trans (Nat.le_of_lt hi) hn)

/-- The number after that of a packet is the count for the last one alone. -/
theorem isLast_packetAt (hn : pieceCount data.length ≤ maxPacketCount)
    (hi : i < pieceCount data.length) :
    (packetAt targetPath sourcePath data i).isLast = true ↔ i + 1 = pieceCount data.length := by
  have hlt : i < 65535 := Nat.lt_of_lt_of_le hi hn
  rw [Packet.isLast, beq_iff_eq, packetAt, nextNumber_ofNat hlt, ← UInt16.toNat_inj,
    toNat_ofNat hlt, toNat_ofNat hn]

/-- The packets of a value are those at its places. -/
theorem getElem_of_transfer {packets : List Packet}
    (h : transfer targetPath sourcePath data = .ok packets) :
    pieceCount data.length ≤ maxPacketCount ∧ packets.length = pieceCount data.length ∧
      ∀ i (hi : i < packets.length), packets[i] = packetAt targetPath sourcePath data i := by
  rw [transfer_eq_map_range] at h
  split at h
  · next hn =>
    obtain rfl := Except.ok.inj h
    exact ⟨hn, by simp, by simp⟩
  · cases h

end Places

/-- A packet that fits is sent between any two addresses, in a frame that is not too long. -/
theorem Packet.Fits.sent {p : Packet} (h : p.Fits) (target source : Address) :
    ∃ f, (Envelope.mk target source (.setData p)).frame = .ok f ∧
      f.logicalBytes.length + 1 ≤ maxFrameLength ∧
      (Envelope.mk target source (.setData p)).encode = .ok f.encode := by
  refine ⟨Envelope.packetFrame target source p,
    Envelope.frame_packet h.1 h.length_le h.frameLength_le, ?_, encode_packet h target source⟩
  have hlength := Envelope.length_content_packetFrame target source p
  rw [Frame.content, List.length_append, List.length_singleton] at hlength
  rw [hlength]
  exact h.frameLength_le

/-- **How a value is split.**  A value has packets exactly when it is at most 64 times 65535
bytes long, and there is at least one then.  Their data makes up the value.  Every packet
bears its place as its number, and how many there are as its count; every one but the last
has 64 bytes, and the last has at most 64, and none only when the value is empty.  Only the
first packet passes for the first, and only the last for the last; all name both paths, and
each is sent between any two addresses in a frame that is not too long. -/
theorem transfer_split (targetPath sourcePath : Path) (data : Bytes) :
    ((∃ packets, transfer targetPath sourcePath data = .ok packets) ↔
      data.length ≤ 64 * 65535) ∧
    ∀ packets, transfer targetPath sourcePath data = .ok packets →
      1 ≤ packets.length ∧ (packets.map Packet.data).flatten = data ∧
      ∀ i (hi : i < packets.length), let p := packets[i]
        p.number.toNat = i ∧ p.count.toNat = packets.length ∧
        (i + 1 < packets.length → p.data.length = 64) ∧
        (i + 1 = packets.length → p.data.length ≤ 64 ∧ (p.data.length = 0 ↔ data = [])) ∧
        (p.isFirst = true ↔ i = 0) ∧ (p.isLast = true ↔ i + 1 = packets.length) ∧
        p.targetPath = targetPath ∧ p.sourcePath = sourcePath ∧
        ∀ target source, ∃ f, (Envelope.mk target source (.setData p)).frame = .ok f ∧
          f.logicalBytes.length + 1 ≤ maxFrameLength ∧
          (Envelope.mk target source (.setData p)).encode = .ok f.encode := by
  refine ⟨?_, fun packets h => ?_⟩
  · rw [transfer_eq_map_range, ← pieceCount_le_iff]
    split
    · next hn => exact iff_of_true ⟨_, rfl⟩ hn
    · next hn => exact iff_of_false (fun ⟨_, h⟩ => by cases h) hn
  · obtain ⟨hn, hlength, hget⟩ := getElem_of_transfer h
    have hone : 1 ≤ pieceCount data.length := Nat.le_max_left _ _
    have hdata : packets.map Packet.data = chunks data := by
      rw [chunks_eq_map_range]
      exact List.ext_getElem (by simp [hlength]) (by simp [hget, packetAt])
    refine ⟨hlength ▸ hone, by rw [hdata, chunks_flatten], fun i hi => ?_⟩
    dsimp only
    rw [hget i hi, hlength]
    rw [hlength] at hi
    refine ⟨toNat_number_packetAt hn hi, toNat_count_packetAt hn, fun hmore => ?_,
      fun hlast => ?_, isFirst_packetAt hn hi, isLast_packetAt hn hi, rfl, rfl,
      (fits_packetAt hn hi).sent⟩
    · rw [length_data_packetAt]
      simp only [pieceCount, packetSize] at hmore
      omega
    · rw [length_data_packetAt, ← List.length_eq_zero_iff]
      simp only [pieceCount, packetSize] at hlast
      omega

/-- A value of 128 bytes has two full packets and no empty one behind them; a value that is
one byte too long has none. -/
theorem transfer_split_twoFull :
    (∃ first second, transfer .root .root (List.replicate 128 startMarker) = .ok [first, second] ∧
      first.data.length = 64 ∧ first.isLast = false ∧
      second.data.length = 64 ∧ second.isLast = true) ∧
    ¬∃ packets, transfer .root .root (List.replicate (64 * 65535 + 1) 0) = .ok packets := by
  constructor
  · have hcount : pieceCount (List.replicate 128 startMarker).length = 2 := by
      rw [List.length_replicate]
      rfl
    have hok : transfer .root .root (List.replicate 128 startMarker) =
        .ok [packetAt .root .root (List.replicate 128 startMarker) 0,
          packetAt .root .root (List.replicate 128 startMarker) 1] := by
      rw [transfer_eq_map_range, hcount]
      rfl
    obtain ⟨_, _, hall⟩ := (transfer_split .root .root _).2 _ hok
    obtain ⟨_, _, hfull, _, _, hnotLast, _⟩ := hall 0 (by decide)
    obtain ⟨_, _, _, _, _, hlast, _⟩ := hall 1 (by decide)
    refine ⟨_, _, hok, hfull (by decide), ?_, ?_, hlast.mpr rfl⟩
    · exact Bool.eq_false_iff.mpr fun h => absurd (hnotLast.mp h) (by decide)
    · show (packetAt .root .root (List.replicate 128 startMarker) 1).data.length = 64
      rw [length_data_packetAt, List.length_replicate]
      rfl
  · intro h
    have hle := (transfer_split .root .root _).1.mp h
    rw [List.length_replicate] at hle
    omega

end ZoneBus
