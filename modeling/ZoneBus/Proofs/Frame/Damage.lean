import Mathlib.Data.Nat.Bitwise
import ZoneBus.Proofs.Frame.Results

/-!
# Frames with a damaged checksum byte

A checksum has seven bits, so it is never reserved and is written as it is, right before
the end marker.  When one of its bits is flipped on the way, the byte that arrives is
another one, and the frame is refused for its checksum, unless that byte is a marker.
The flipped byte is a marker in three cases only, all of them with the top bit: a start
marker drops the frame, an escape marker is left without a partner, and an end marker
closes the frame before its checksum, so that its last byte is taken for one.

## Main definitions

* `flipBit` — a byte with one bit flipped.
* `Frame.damaged` — a frame as it is written, with one bit of the checksum byte flipped.

## Main results

* `isReserved_flipBit_checksum` — when the damaged byte is a marker.
* `Decoder.damaged_checksum` — **what a decoder makes of the damage.**
* `Decoder.exists_damaged_accepted` — a damaged frame may pass for another one.
-/

namespace ZoneBus

/-! ### Flipping a bit -/

/-- A byte with one bit flipped. -/
def flipBit (i : Fin 8) (b : UInt8) : UInt8 := b ^^^ UInt8.ofNat (2 ^ i.val)

theorem flipBit_flipBit (i : Fin 8) (b : UInt8) : flipBit i (flipBit i b) = b := by
  rw [flipBit, flipBit, UInt8.xor_assoc, UInt8.xor_self, UInt8.xor_zero]

theorem flipBit_ne (i : Fin 8) (b : UInt8) : flipBit i b ≠ b := by
  intro h
  have hzero : UInt8.ofNat (2 ^ i.val) = 0 := by
    have hxor : b ^^^ flipBit i b = UInt8.ofNat (2 ^ i.val) := by
      rw [flipBit, ← UInt8.xor_assoc, UInt8.xor_self, UInt8.zero_xor]
    rw [← hxor, h, UInt8.xor_self]
  have hnot : ∀ i : Fin 8, UInt8.ofNat (2 ^ i.val) ≠ 0 := by decide
  exact hnot i hzero

/-! ### Checksums -/

/-- A checksum has seven bits. -/
theorem checksum_lt (bs : Bytes) : (checksum bs).toNat < 128 := by
  rw [checksum]
  generalize bs.foldl (fun acc b => acc + b.toUInt32) startMarker.toUInt32 = sum
  have hand : ((sum + (UInt32.ofNat bs.length + 1)) &&& 0x7F).toNat ≤ 127 := by
    rw [UInt32.toNat_and]
    exact Nat.and_le_right
  rw [UInt32.toNat_toUInt8]
  omega

theorem isReserved_checksum (bs : Bytes) : isReserved (checksum bs) = false := by
  have hlt := checksum_lt bs
  rw [not_isReserved_iff]
  refine ⟨?_, ?_, ?_⟩ <;> intro h <;> rw [h] at hlt <;> revert hlt <;> decide

/-- Only with the top bit flipped does a byte of seven bits become a marker. -/
theorem flipBit_eq_marker_iff {b marker : UInt8} {i : Fin 8} (hb : b.toNat < 128)
    (hm : isReserved marker = true) : flipBit i b = marker ↔ i = 7 ∧ b = flipBit 7 marker := by
  have htop : ∀ i : Fin 8, (flipBit i marker).toNat < 128 → i = 7 := by
    rcases isReserved_iff.mp hm with rfl | rfl | rfl
    · decide
    · decide
    · decide
  constructor
  · rintro rfl
    have hi : i = 7 := htop i (by rw [flipBit_flipBit]; exact hb)
    subst hi
    exact ⟨rfl, (flipBit_flipBit 7 b).symm⟩
  · rintro ⟨rfl, rfl⟩
    exact flipBit_flipBit 7 marker

/-- **When the damaged byte is a marker**, and which one it is. -/
theorem isReserved_flipBit_checksum (bs : Bytes) (i : Fin 8) :
    (flipBit i (checksum bs) = startMarker ↔ i = 7 ∧ checksum bs = 0x70) ∧
      (flipBit i (checksum bs) = escapeMarker ↔ i = 7 ∧ checksum bs = 0x71) ∧
      (flipBit i (checksum bs) = endMarker ↔ i = 7 ∧ checksum bs = 0x77) :=
  ⟨flipBit_eq_marker_iff (checksum_lt bs) (by decide),
    flipBit_eq_marker_iff (checksum_lt bs) (by decide),
    flipBit_eq_marker_iff (checksum_lt bs) (by decide)⟩

/-! ### Damaged frames -/

namespace Frame

/-- A frame as it is written, with one bit of its last byte before the end marker
flipped. -/
def damaged (f : Frame) (i : Fin 8) : Bytes := f.encode.modify (f.encode.length - 2) (flipBit i)

/-- The checksum is written as it is, right before the end marker. -/
theorem encode_eq_checksum (f : Frame) :
    f.encode = startMarker :: (escape f.logicalBytes ++ [checksum f.logicalBytes, endMarker]) := by
  have hsum : escape [checksum f.logicalBytes] = [checksum f.logicalBytes] := by
    rw [escape_cons, escape_nil, escapeByte, isReserved_checksum]
    rfl
  have hcontent : escape f.content = escape f.logicalBytes ++ [checksum f.logicalBytes] := by
    rw [content, escape, List.flatMap_append, ← escape, ← escape, hsum]
  rw [encode_eq, hcontent, List.append_assoc]
  rfl

theorem damaged_eq (f : Frame) (i : Fin 8) :
    f.damaged i = startMarker ::
      (escape f.logicalBytes ++ [flipBit i (checksum f.logicalBytes), endMarker]) := by
  have hlast : ∀ (as : Bytes) (b c : UInt8), (as ++ [b, c]).modify as.length (flipBit i) =
      as ++ [flipBit i b, c] := by
    intro as b c
    induction as with
    | nil => rfl
    | cons a as ih => rw [List.cons_append, List.length_cons, List.modify_succ_cons, ih]; rfl
  have hlen : f.encode.length - 2 = (startMarker :: escape f.logicalBytes).length := by
    rw [encode_eq_checksum]
    simp
  rw [damaged, hlen, encode_eq_checksum, ← List.cons_append, hlast]
  rfl

/-- Only the content of a frame is taken for it. -/
theorem eq_content_of_ofContent {bs : Bytes} {f : Frame} (h : ofContent bs = .ok f) :
    bs = f.content := by
  obtain hshort | ⟨g, last, rfl⟩ := content_cases bs
  · rw [ofContent, if_pos hshort] at h
    cases h
  · by_cases hsum : last = checksum g.logicalBytes
    · subst hsum
      have hg : ofContent (g.logicalBytes ++ [checksum g.logicalBytes]) = .ok g :=
        ofContent_content g
      rw [hg] at h
      obtain rfl := Except.ok.inj h
      rfl
    · rw [ofContent_mismatch hsum] at h
      cases h

end Frame

namespace Scanner

variable {f : Frame} {i : Fin 8}

/-- The scanner has the logical bytes when the damaged byte comes. -/
theorem feed_damaged (hf : f.logicalBytes.length + 1 ≤ maxFrameLength) (k : Nat) (rest : Bytes) :
    feed ⟨.outside, k⟩ (f.damaged i ++ rest) =
      feed ⟨.inside f.logicalBytes false, k⟩
        (flipBit i (checksum f.logicalBytes) :: endMarker :: rest) := by
  have hlogical : feed ⟨.inside [] false, k⟩ (escape f.logicalBytes) =
      ([], ⟨.inside f.logicalBytes false, k⟩) :=
    feed_escape k f.logicalBytes [] (Nat.le_of_succ_le hf)
  rw [Frame.damaged_eq, List.cons_append, feed_cons_none step_startMarker, List.append_assoc,
    feed_append, hlogical]
  rfl

theorem feed_endMarker {content : Bytes} {k : Nat} (rest : Bytes) :
    feed ⟨.inside content false, k⟩ (endMarker :: rest) =
      (Frame.ofContent content :: (feed ⟨.outside, k⟩ rest).1, (feed ⟨.outside, k⟩ rest).2) :=
  feed_cons_some step_endMarker rest

/-! ### Another byte in the place of the checksum -/

theorem feed_next_frame {g : Frame} (hg : g.logicalBytes.length + 1 ≤ maxFrameLength) (k : Nat) :
    feed ⟨.outside, k⟩ g.encode = ([.ok g], ⟨.outside, k⟩) := by
  refine feed_encode ?_ k
  rw [Frame.content, List.length_append]
  exact hg

variable {g : Frame} {k : Nat}

theorem feed_wrong_checksum (hf : f.logicalBytes.length + 1 ≤ maxFrameLength)
    (hg : g.logicalBytes.length + 1 ≤ maxFrameLength) {b : UInt8} (hb : isReserved b = false)
    (hne : b ≠ checksum f.logicalBytes) :
    (feed ⟨.inside f.logicalBytes false, k⟩ (b :: endMarker :: g.encode)).1 =
      [.error (.checksum (checksum f.logicalBytes) b), .ok g] := by
  have hroom : (f.logicalBytes ++ [b]).length ≤ maxFrameLength := by
    rw [List.length_append]
    exact hf
  rw [feed_cons_none (step_plain hb hroom), feed_endMarker, feed_next_frame hg,
    Frame.ofContent_mismatch hne]

theorem feed_start_for_checksum (hg : g.logicalBytes.length + 1 ≤ maxFrameLength) :
    (feed ⟨.inside f.logicalBytes false, k⟩ (startMarker :: endMarker :: g.encode)).1 =
      [.error (.malformedFrame (.interrupted f.logicalBytes.length)),
        .error (.malformedFrame (.tooShort 0)), .ok g] := by
  rw [feed_interrupted, feed_cons_none step_startMarker, feed_endMarker, feed_next_frame hg]
  rfl

theorem feed_escape_for_checksum (hg : g.logicalBytes.length + 1 ≤ maxFrameLength) :
    (feed ⟨.inside f.logicalBytes false, k⟩ (escapeMarker :: endMarker :: g.encode)).1 =
      [.error (.malformedFrame .danglingEscape), .ok g] := by
  have hclose : step ⟨.inside f.logicalBytes true, k⟩ endMarker =
      (⟨.outside, k⟩, some (.error (.malformedFrame .danglingEscape))) := rfl
  rw [feed_cons_none step_escapeMarker, feed_cons_some hclose, feed_next_frame hg]

theorem feed_end_for_checksum (hg : g.logicalBytes.length + 1 ≤ maxFrameLength) :
    (feed ⟨.inside f.logicalBytes false, k⟩ (endMarker :: endMarker :: g.encode)).1 =
      [Frame.ofContent f.logicalBytes, .ok g] := by
  have hskip : step ⟨.outside, k⟩ endMarker = (⟨.outside, k + 1⟩, none) := rfl
  rw [feed_endMarker, feed_cons_none hskip, feed_next_frame hg]

end Scanner

namespace Decoder

/-- **What a decoder makes of the damage.**  One bit of the checksum byte of a frame is
flipped on the way, and another frame follows.  Unless the top bit of one of three
checksums is flipped, there is one checksum error, and then the other frame.  With the
top bit the byte may become a marker: a start marker gives two malformed frames in place
of the checksum error, an escape marker gives one, and an end marker gives whatever the
logical bytes are when they are taken for the content of a frame; the other frame is
found in any case.  So no further frame is ever accepted, unless the damaged byte is an
end marker and the logical bytes happen to be the content of that frame. -/
theorem damaged_checksum {f g : Frame} (hf : f.logicalBytes.length + 1 ≤ maxFrameLength)
    (hg : g.logicalBytes.length + 1 ≤ maxFrameLength) (i : Fin 8) :
    let sum := checksum f.logicalBytes
    let results := (fresh.extend (f.damaged i ++ g.encode)).drain.1
    (¬(i = 7 ∧ (sum = 0x70 ∨ sum = 0x71 ∨ sum = 0x77)) →
      results = [.error (.checksum sum (flipBit i sum)), .ok g]) ∧
    (i = 7 → sum = 0x70 → results =
      [.error (.malformedFrame (.interrupted f.logicalBytes.length)),
        .error (.malformedFrame (.tooShort 0)), .ok g]) ∧
    (i = 7 → sum = 0x71 → results = [.error (.malformedFrame .danglingEscape), .ok g]) ∧
    (i = 7 → sum = 0x77 → results = [Frame.ofContent f.logicalBytes, .ok g]) ∧
    ∀ h, .ok h ∈ results → h ≠ g → i = 7 ∧ sum = 0x77 ∧ f.logicalBytes = h.content := by
  intro sum results
  have hresults : results = (Scanner.feed ⟨.inside f.logicalBytes false, 0⟩
      (flipBit i sum :: endMarker :: g.encode)).1 := by
    rw [← Scanner.feed_damaged hf 0 g.encode]
    show (fresh.extend (f.damaged i ++ g.encode)).drain.1 = _
    rw [drain_eq]
    rfl
  obtain ⟨hstart, hescape, hend⟩ := isReserved_flipBit_checksum f.logicalBytes i
  have hplain : ¬(i = 7 ∧ (sum = 0x70 ∨ sum = 0x71 ∨ sum = 0x77)) →
      results = [.error (.checksum sum (flipBit i sum)), .ok g] := by
    intro hnot
    have hbyte : isReserved (flipBit i sum) = false := by
      rw [not_isReserved_iff]
      refine ⟨fun h => hnot ?_, fun h => hnot ?_, fun h => hnot ?_⟩
      · exact ⟨(hstart.mp h).1, Or.inl (hstart.mp h).2⟩
      · exact ⟨(hend.mp h).1, Or.inr (Or.inr (hend.mp h).2)⟩
      · exact ⟨(hescape.mp h).1, Or.inr (Or.inl (hescape.mp h).2)⟩
    rw [hresults]
    exact Scanner.feed_wrong_checksum hf hg hbyte (flipBit_ne i sum)
  have hinterrupted : i = 7 → sum = 0x70 → results =
      [.error (.malformedFrame (.interrupted f.logicalBytes.length)),
        .error (.malformedFrame (.tooShort 0)), .ok g] := by
    intro hi hsum
    rw [hresults, hstart.mpr ⟨hi, hsum⟩]
    exact Scanner.feed_start_for_checksum hg
  have hdangling : i = 7 → sum = 0x71 →
      results = [.error (.malformedFrame .danglingEscape), .ok g] := by
    intro hi hsum
    rw [hresults, hescape.mpr ⟨hi, hsum⟩]
    exact Scanner.feed_escape_for_checksum hg
  have hclosed : i = 7 → sum = 0x77 → results = [Frame.ofContent f.logicalBytes, .ok g] := by
    intro hi hsum
    rw [hresults, hend.mpr ⟨hi, hsum⟩]
    exact Scanner.feed_end_for_checksum hg
  refine ⟨hplain, hinterrupted, hdangling, hclosed, ?_⟩
  intro h hm hne
  by_cases hdamage : i = 7 ∧ (sum = 0x70 ∨ sum = 0x71 ∨ sum = 0x77)
  · obtain ⟨hi, hsum | hsum | hsum⟩ := hdamage
    · rw [hinterrupted hi hsum] at hm
      simp [hne] at hm
    · rw [hdangling hi hsum] at hm
      simp [hne] at hm
    · rw [hclosed hi hsum] at hm
      simp only [List.mem_cons, Except.ok.injEq, hne, List.not_mem_nil, or_false] at hm
      exact ⟨hi, hsum, Frame.eq_content_of_ofContent hm.symm⟩
  · rw [hplain hdamage] at hm
    simp [hne] at hm

/-- A handshake. -/
def handshake : Frame := ⟨.rootController, .external, 0x02, [0x11]⟩

/-- The frame whose logical bytes are the content of the handshake. -/
def lookalike : Frame := ⟨.rootController, .external, 0x02, [0x11, 0x7B]⟩

/-- A frame that comes after them. -/
def follower : Frame := ⟨.rootController, .external, 0x02, [0x02]⟩

/-- With its lowest bit flipped the checksum byte of the frame is refused; with the top
bit flipped the frame passes for the handshake. -/
theorem damaged_checksum_lookalike :
    lookalike.logicalBytes.length + 1 ≤ maxFrameLength ∧
      follower.logicalBytes.length + 1 ≤ maxFrameLength ∧
      (fresh.extend (lookalike.damaged 0 ++ follower.encode)).drain.1 =
        [.error (.checksum 0x77 0x76), .ok follower] ∧
      (fresh.extend (lookalike.damaged 7 ++ follower.encode)).drain.1 =
        [.ok handshake, .ok follower] := by
  have hf : lookalike.logicalBytes.length + 1 ≤ maxFrameLength := by decide
  have hg : follower.logicalBytes.length + 1 ≤ maxFrameLength := by decide
  obtain ⟨hplain, _⟩ := damaged_checksum hf hg 0
  obtain ⟨_, _, _, hclosed, _⟩ := damaged_checksum hf hg 7
  exact ⟨hf, hg, hplain (by decide), hclosed rfl (by decide)⟩

/-- **A damaged frame may pass for another one**, without any error. -/
theorem exists_damaged_accepted :
    lookalike.logicalBytes.length + 1 ≤ maxFrameLength ∧
      follower.logicalBytes.length + 1 ≤ maxFrameLength ∧ handshake ≠ follower ∧
      .ok handshake ∈ (fresh.extend (lookalike.damaged 7 ++ follower.encode)).drain.1 ∧
      ∀ expected actual, (fresh.extend (lookalike.damaged 7 ++ follower.encode)).drain.1 ≠
        [.error (.checksum expected actual), .ok follower] := by
  have hresults : (fresh.extend (lookalike.damaged 7 ++ follower.encode)).drain.1 =
      [.ok handshake, .ok follower] := by
    rw [drain_eq]
    rfl
  rw [hresults]
  refine ⟨by decide, by decide, by decide, List.mem_cons_self, ?_⟩
  intro expected actual h
  cases h

end Decoder

end ZoneBus
