import ZoneBus.Proofs.Frame.Damage

/-!
# Frames with an altered byte

The checksum adds up the bytes in a word of thirty-two bits and keeps the lowest seven of
the sum.  The word may wrap around, but the bits that are kept are those of the true sum.
So when one byte is replaced by another, the checksum stays the same exactly when the two
differ in nothing but the top bit: a frame with such a byte is accepted as it stands, and
with any other byte it is refused for its checksum.

## Main results

* `toNat_checksum` — the checksum is that of the sum of the bytes as numbers.
* `checksum_set_eq_iff` — which bytes can be replaced without the checksum telling.
* `Frame.decode_altered` — **what is made of a frame with an altered byte.**
-/

namespace ZoneBus

/-! ### Sums -/

/-- Adding up bytes in a word gives their sum, as far as the word can tell it. -/
theorem toNat_foldl_add (bs : Bytes) : ∀ start : UInt32,
    (bs.foldl (fun sum b => sum + b.toUInt32) start).toNat =
      (start.toNat + (bs.map UInt8.toNat).sum) % 2 ^ 32 := by
  induction bs with
  | nil =>
    intro start
    simp
  | cons b bs ih =>
    intro start
    rw [List.foldl_cons, ih, UInt32.toNat_add, UInt8.toNat_toUInt32, List.map_cons,
      List.sum_cons]
    omega

/-- **The checksum is that of the sum of the bytes as numbers.** -/
theorem toNat_checksum (bs : Bytes) :
    (checksum bs).toNat =
      (startMarker.toNat + (bs.map UInt8.toNat).sum + bs.length + 1) % 128 := by
  have hsum := toNat_foldl_add bs startMarker.toUInt32
  rw [UInt8.toNat_toUInt32] at hsum
  -- the lowest seven bits of a word are its remainder
  have hbits : ∀ w : UInt32, ((w &&& 0x7F).toUInt8).toNat = w.toNat % 128 := by
    intro w
    have hand : w.toNat &&& 127 = w.toNat % 128 := Nat.and_two_pow_sub_one_eq_mod w.toNat 7
    rw [UInt32.toNat_toUInt8, UInt32.toNat_and]
    show (w.toNat &&& 127) % 256 = _
    omega
  rw [checksum, hbits, UInt32.toNat_add, UInt32.toNat_add, hsum, UInt32.toNat_ofNat']
  show (_ + (_ + 1) % 2 ^ 32) % 2 ^ 32 % 128 = _
  omega

variable {bs : Bytes} {i : Nat} {b : UInt8}

/-- A byte that replaces another one takes its part in the sum. -/
theorem sum_set (hi : i < bs.length) :
    ((bs.set i b).map UInt8.toNat).sum + bs[i].toNat = (bs.map UInt8.toNat).sum + b.toNat := by
  induction bs generalizing i with
  | nil => exact absurd hi (Nat.not_lt_zero i)
  | cons a bs ih =>
    cases i with
    | zero => simp; omega
    | succ i =>
      have hrest := ih (Nat.lt_of_succ_lt_succ hi)
      simp only [List.set_cons_succ, List.map_cons, List.sum_cons, List.getElem_cons_succ]
      omega

/-- **Which bytes can be replaced without the checksum telling**: only by one with the same
lowest seven bits. -/
theorem checksum_set_eq_iff (hi : i < bs.length) :
    checksum (bs.set i b) = checksum bs ↔ b.toNat % 128 = bs[i].toNat % 128 := by
  have hsum := sum_set hi (b := b)
  rw [← UInt8.toNat_inj, toNat_checksum, toNat_checksum, List.length_set]
  omega

/-! ### Altered frames -/

namespace Frame

/-- What is made of logical bytes with some last byte behind them, between markers. -/
theorem decode_content_written {content : Bytes} (h : content.length ≤ maxFrameLength) :
    let written := startMarker :: (escape content ++ [endMarker])
    decode written = ofContent content ∧
      (Decoder.fresh.extend written).drain = ([ofContent content], Decoder.fresh) := by
  intro written
  have hfeed : Scanner.fresh.feed written = ([ofContent content], Scanner.fresh) :=
    Scanner.feed_content_written h 0
  constructor
  · rw [decode, Scanner.next_fst, hfeed]
    rfl
  · rw [Decoder.drain_eq]
    show ((Scanner.fresh.feed written).1, (⟨(Scanner.fresh.feed written).2, []⟩ : Decoder)) = _
    rw [hfeed]
    rfl

/-- **What is made of a frame with an altered byte.**  The checksum of any bytes is the sum
of the start marker, the bytes, their number and one, to seven bits.

Let one of the logical bytes of a frame be replaced by any byte, and the checksum stay as it
was.  Written between markers, this gives one result, and the decoder is as before.  It is
the frame with the altered logical bytes when the two bytes agree in the lowest seven bits;
otherwise it is a checksum error that names the checksum of the altered bytes as the expected
one, and the one that was sent as the actual one. -/
theorem decode_altered :
    (∀ bs : Bytes, (checksum bs).toNat =
      (0xF0 + (bs.map UInt8.toNat).sum + bs.length + 1) % 128) ∧
    ∀ (bs : Bytes) (i : Nat) (hi : i < bs.length) (b : UInt8), 7 ≤ bs.length → bs.length ≤ 2047 →
      let altered := bs.set i b
      let written := startMarker :: (escape (altered ++ [checksum bs]) ++ [endMarker])
      ∃ result : FrameResult, decode written = result ∧
        (Decoder.fresh.extend written).drain = ([result], Decoder.fresh) ∧
        (b.toNat % 128 = bs[i].toNat % 128 →
          ∃ f : Frame, f.logicalBytes = altered ∧ result = .ok f) ∧
        (b.toNat % 128 ≠ bs[i].toNat % 128 →
          result = .error (.checksum (checksum altered) (checksum bs))) := by
  refine ⟨toNat_checksum, ?_⟩
  intro bs i hi b hmin hmax altered written
  have hlength : altered.length = bs.length := List.length_set
  have hroom : (altered ++ [checksum bs]).length ≤ maxFrameLength := by
    rw [List.length_append, hlength]
    exact Nat.succ_le_succ hmax
  obtain ⟨f, hf⟩ : ∃ f : Frame, f.logicalBytes = altered :=
    exists_logicalBytes (by rw [hlength]; exact Nat.succ_le_succ hmin)
  have hsame : checksum altered = checksum bs ↔ b.toNat % 128 = bs[i].toNat % 128 :=
    checksum_set_eq_iff hi
  obtain ⟨hdecode, hdrain⟩ := decode_content_written hroom
  refine ⟨ofContent (altered ++ [checksum bs]), hdecode, hdrain, ?_, ?_⟩
  · intro hbits
    refine ⟨f, hf, ?_⟩
    rw [← hsame.mpr hbits, ← hf]
    exact ofContent_content f
  · intro hbits
    rw [← hf] at hsame ⊢
    exact ofContent_mismatch fun hsum => hbits (hsame.mp hsum.symm)

/-- A byte that becomes a start marker by its top bit alone is not told from the byte that
was there, also though it is escaped now; an end marker in its place is. -/
theorem decode_altered_marker :
    let bs : Bytes := [0, 0, 0x7F, 0, 0, 0x70, 0x02, 0x70]
    let marker : Frame := ⟨.rootController, .external, 0x02, [startMarker]⟩
    7 ≤ bs.length ∧ bs.length ≤ 2047 ∧
      decode (startMarker :: (escape (bs.set 7 startMarker ++ [checksum bs]) ++ [endMarker])) =
        .ok marker ∧
      decode (startMarker :: (escape (bs.set 7 endMarker ++ [checksum bs]) ++ [endMarker])) =
        .error (.checksum 0x61 0x5A) := by
  intro bs marker
  have hmin : 7 ≤ bs.length := by decide
  have hmax : bs.length ≤ 2047 := by decide
  obtain ⟨_, haltered⟩ := decode_altered
  obtain ⟨result, hsame, _, hframe, _⟩ :=
    haltered bs 7 (by decide) startMarker hmin hmax
  obtain ⟨f, hf, rfl⟩ := hframe (by decide)
  obtain ⟨result', hother, _, _, herror⟩ := haltered bs 7 (by decide) endMarker hmin hmax
  have hmarker : f = marker := logicalBytes_injective hf
  refine ⟨hmin, hmax, ?_, ?_⟩
  · rw [hsame, hmarker]
  · rw [hother, herror (by decide)]
    decide

end Frame

end ZoneBus
