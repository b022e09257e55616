import ZoneBus.Proofs.Frame.Damage

/-!
# What stands between the markers

Whatever the logical bytes of a frame are, no start or end marker is written between its
markers, and an escape marker only in front of the complement of a reserved byte.  Such a
complement is not reserved itself, so escape markers never meet, and each has a partner of
its own.  Bytes that are written in this way can be read back, and each sequence of bytes has
one written form only.

## Main definitions

* `complements` — the bytes that may follow an escape marker.
* `Escaped` — bytes that may stand between the markers of a frame.

## Main results

* `escaped_escape`, `unescape_escape`, `escape_unescape` — escaping and undoing it are
  inverse to each other.
* `length_escape` — every reserved byte takes one byte more.
* `Frame.encode_delimited` — **what a frame is like as it is written.**
-/

namespace ZoneBus

/-- The complements of the start marker, the end marker and the escape marker. -/
def complements : Bytes := [0x0F, 0x08, 0x0E]

theorem mem_complements_iff {c : UInt8} : c ∈ complements ↔ isReserved (~~~c) = true := by
  have hback : ∀ marker : UInt8, ~~~c = marker ↔ c = ~~~marker := by
    intro marker
    constructor
    · rintro rfl
      exact UInt8.not_not.symm
    · rintro rfl
      exact UInt8.not_not
  rw [isReserved_iff, hback, hback, hback]
  simp only [complements, List.mem_cons, List.not_mem_nil, or_false]
  rfl

theorem complement_mem_complements {b : UInt8} (h : isReserved b = true) :
    ~~~b ∈ complements := by
  rw [mem_complements_iff, UInt8.not_not]
  exact h

/-- Bytes that may stand between the markers of a frame. -/
structure Escaped (bs : Bytes) : Prop where
  /-- There is no start marker. -/
  noStart : startMarker ∉ bs
  /-- There is no end marker. -/
  noEnd : endMarker ∉ bs
  /-- Directly after an escape marker stands the complement of a reserved byte. -/
  paired : ∀ i, bs[i]? = some escapeMarker → ∃ c ∈ complements, bs[i + 1]? = some c

namespace Escaped

variable {b : UInt8} {bs : Bytes}

theorem nil : Escaped [] := ⟨List.not_mem_nil, List.not_mem_nil, fun _ h => by cases h⟩

theorem tail (h : Escaped (b :: bs)) : Escaped bs where
  noStart := fun hm => h.noStart (List.mem_cons_of_mem b hm)
  noEnd := fun hm => h.noEnd (List.mem_cons_of_mem b hm)
  paired := fun i hi => h.paired (i + 1) hi

/-- A byte that is not reserved may stand before the others. -/
theorem plain (hb : isReserved b = false) (h : Escaped bs) : Escaped (b :: bs) := by
  obtain ⟨hstart, hend, hesc⟩ := not_isReserved_iff.mp hb
  refine ⟨?_, ?_, ?_⟩
  · rw [List.mem_cons, not_or]
    exact ⟨hstart.symm, h.noStart⟩
  · rw [List.mem_cons, not_or]
    exact ⟨hend.symm, h.noEnd⟩
  · intro i hi
    cases i with
    | zero => exact absurd (Option.some.inj hi) hesc
    | succ i => exact h.paired i hi

/-- So may an escape marker with its partner. -/
theorem pair (hb : isReserved b = true) (h : Escaped bs) :
    Escaped (escapeMarker :: ~~~b :: bs) := by
  have hrest : Escaped (~~~b :: bs) := h.plain (isReserved_complement hb)
  refine ⟨?_, ?_, ?_⟩
  · rw [List.mem_cons, not_or]
    exact ⟨by decide, hrest.noStart⟩
  · rw [List.mem_cons, not_or]
    exact ⟨by decide, hrest.noEnd⟩
  · intro i hi
    cases i with
    | zero => exact ⟨~~~b, complement_mem_complements hb, rfl⟩
    | succ i => exact hrest.paired i hi

/-- The first byte is not reserved unless it is an escape marker. -/
theorem head_plain (h : Escaped (b :: bs)) (hb : b ≠ escapeMarker) : isReserved b = false := by
  rw [not_isReserved_iff]
  refine ⟨?_, ?_, hb⟩
  · rintro rfl
    exact h.noStart List.mem_cons_self
  · rintro rfl
    exact h.noEnd List.mem_cons_self

/-- Pairs do not overlap: the partner of an escape marker is no escape marker. -/
theorem apart (h : Escaped bs) {i j : Nat} (hi : bs[i]? = some escapeMarker)
    (hj : bs[j]? = some escapeMarker) (hij : i < j) : i + 1 < j := by
  refine Nat.lt_of_le_of_ne hij ?_
  rintro rfl
  obtain ⟨c, hc, hnext⟩ := h.paired i hi
  rw [hj] at hnext
  obtain rfl := Option.some.inj hnext
  revert hc
  decide

end Escaped

/-! ### Escaping and undoing it -/

theorem escapeByte_of_plain {b : UInt8} (h : isReserved b = false) : escapeByte b = [b] := by
  rw [escapeByte, if_neg (by rw [h]; exact Bool.false_ne_true)]

theorem escapeByte_of_reserved {b : UInt8} (h : isReserved b = true) :
    escapeByte b = [escapeMarker, ~~~b] := by
  rw [escapeByte, if_pos h]

/-- What is written for any bytes may stand between the markers. -/
theorem escaped_escape (bs : Bytes) : Escaped (escape bs) := by
  induction bs with
  | nil => exact Escaped.nil
  | cons b bs ih =>
    rw [escape_cons]
    cases hb : isReserved b with
    | true =>
      rw [escapeByte_of_reserved hb]
      exact ih.pair hb
    | false =>
      rw [escapeByte_of_plain hb]
      exact ih.plain hb

/-- A byte that is no escape marker stands for itself. -/
theorem unescape_cons_of_ne {b : UInt8} (h : b ≠ escapeMarker) (bs : Bytes) :
    unescape (b :: bs) = b :: unescape bs ∧ dangling (b :: bs) = dangling bs := by
  cases bs with
  | nil => simp [unescape, dangling, h]
  | cons c bs => simp [unescape, dangling, h]

/-- **What is written can be read back**: undoing the escapes gives the bytes that were
written, and no escape marker is without a partner. -/
theorem unescape_escape (bs : Bytes) :
    unescape (escape bs) = bs ∧ dangling (escape bs) = false := by
  induction bs with
  | nil => exact ⟨rfl, rfl⟩
  | cons b bs ih =>
    obtain ⟨hback, hpaired⟩ := ih
    rw [escape_cons]
    cases hb : isReserved b with
    | true =>
      rw [escapeByte_of_reserved hb]
      simp only [List.cons_append, List.nil_append, unescape, dangling, if_true, UInt8.not_not]
      exact ⟨congrArg (List.cons b) hback, hpaired⟩
    | false =>
      obtain ⟨hfirst, hleft⟩ := unescape_cons_of_ne (not_isReserved_iff.mp hb).2.2 (escape bs)
      rw [escapeByte_of_plain hb, List.singleton_append, hfirst, hleft, hback]
      exact ⟨rfl, hpaired⟩

/-- **There is one written form only**: what may stand between the markers is what is written
for the bytes that it is read as. -/
theorem escape_unescape {bs : Bytes} (h : Escaped bs) : escape (unescape bs) = bs := by
  induction bs using unescape.induct with
  | case1 => rfl
  | case2 =>
    -- the escape marker has no partner
    obtain ⟨c, _, hc⟩ := h.paired 0 rfl
    cases hc
  | case3 b hb =>
    rw [(unescape_cons_of_ne hb []).1, escape_cons, escapeByte_of_plain (h.head_plain hb)]
    rfl
  | case4 c rest ih =>
    obtain ⟨c', hc, hnext⟩ := h.paired 0 rfl
    obtain rfl : c = c' := Option.some.inj hnext
    have hreserved : isReserved (~~~c) = true := mem_complements_iff.mp hc
    rw [unescape, if_pos rfl, escape_cons, escapeByte_of_reserved hreserved, UInt8.not_not,
      ih h.tail.tail]
    rfl
  | case5 b c rest hb ih =>
    rw [(unescape_cons_of_ne hb (c :: rest)).1, escape_cons,
      escapeByte_of_plain (h.head_plain hb), ih h.tail]
    rfl

/-- Every reserved byte takes one byte more. -/
theorem length_escape (bs : Bytes) : (escape bs).length = bs.length + bs.countP isReserved := by
  induction bs with
  | nil => rfl
  | cons b bs ih =>
    rw [escape_cons, List.length_append, ih, List.length_cons]
    cases hb : isReserved b with
    | true =>
      rw [escapeByte_of_reserved hb, List.countP_cons_of_pos hb]
      simp only [List.length_cons, List.length_nil]
      omega
    | false =>
      rw [escapeByte_of_plain hb, List.countP_cons_of_neg (by rw [hb]; exact Bool.false_ne_true)]
      simp only [List.length_cons, List.length_nil]
      omega

/-! ### Frames -/

namespace Frame

/-- The markers, the checksum, and one byte more for every reserved byte. -/
theorem length_encode (f : Frame) :
    f.encode.length = 3 + f.logicalBytes.length + f.logicalBytes.countP isReserved := by
  rw [encode_eq_checksum, List.length_cons, List.length_append, length_escape]
  simp only [List.length_cons, List.length_nil]
  omega

/-- **What a frame is like as it is written.**  It is a start marker, an interior and an end
marker.  The interior holds no start and no end marker; directly after each escape marker in
it stands the complement of the start, the end or the escape marker, and no two of these pairs
overlap.  With the pairs undone it is the logical bytes and their checksum, and no escape
marker is left over; nothing else that is escaped in this way can be read so.  The whole is as
long as the logical bytes and three bytes more, and one more for each reserved byte among
them. -/
theorem encode_delimited (f : Frame) : ∃ interior : Bytes,
    f.encode = startMarker :: (interior ++ [endMarker]) ∧
    (startMarker ∉ interior ∧ endMarker ∉ interior) ∧
    ((∀ i : Nat, interior[i]? = some escapeMarker →
        interior[i + 1]? = some 0x0F ∨ interior[i + 1]? = some 0x08 ∨
          interior[i + 1]? = some 0x0E) ∧
      ∀ i j : Nat, interior[i]? = some escapeMarker → interior[j]? = some escapeMarker →
        i < j → i + 1 < j) ∧
    (unescape interior = f.logicalBytes ++ [checksum f.logicalBytes] ∧
      dangling interior = false ∧
      ∀ other, Escaped other →
        unescape other = f.logicalBytes ++ [checksum f.logicalBytes] → other = interior) ∧
    f.encode.length = 3 + f.logicalBytes.length + f.logicalBytes.countP isReserved := by
  have hescaped : Escaped (escape f.content) := escaped_escape f.content
  obtain ⟨hback, hpaired⟩ := unescape_escape f.content
  refine ⟨escape f.content, f.encode_eq, ⟨hescaped.noStart, hescaped.noEnd⟩, ⟨?_, ?_⟩,
    ⟨hback, hpaired, ?_⟩, f.length_encode⟩
  · intro i hi
    obtain ⟨c, hc, hnext⟩ := hescaped.paired i hi
    rw [hnext, Option.some.injEq, Option.some.injEq, Option.some.injEq]
    simpa [complements] using hc
  · intro i j hi hj hij
    exact hescaped.apart hi hj hij
  · intro other hother hsame
    rw [← escape_unescape hother, hsame]
    rfl

/-- A body of one marker after another, and of a byte that would be the partner of one: every
marker becomes a pair of its own, and that byte stands for itself. -/
theorem encode_delimited_markers :
    let f : Frame := ⟨.rootController, .external, 0x09, [0xF1, 0xF1, 0xF0, 0x0F, 0xF7]⟩
    let interior : Bytes := [0, 0, 0x7F, 0, 0, 0x70, 0x09, 0xF1, 0x0E, 0xF1, 0x0E, 0xF1, 0x0F,
      0x0F, 0xF1, 0x08, 0x4D]
    f.encode = startMarker :: (interior ++ [endMarker]) ∧
      (interior[7]? = some escapeMarker ∧ interior[9]? = some escapeMarker ∧ 7 + 1 < 9) ∧
      unescape interior = f.logicalBytes ++ [checksum f.logicalBytes] ∧
      f.encode.length = 3 + 12 + 4 := by
  intro f interior
  have hsame : f.encode = startMarker :: (interior ++ [endMarker]) := by decide
  obtain ⟨written, hwritten, _, ⟨_, hapart⟩, ⟨hback, _, _⟩, hlength⟩ := encode_delimited f
  obtain rfl : written = interior := by
    rw [hsame, List.cons.injEq] at hwritten
    exact (List.append_cancel_right hwritten.2).symm
  exact ⟨hsame, ⟨by decide, by decide, hapart 7 9 (by decide) (by decide) (by decide)⟩, hback,
    hlength.trans (by decide)⟩

end Frame

end ZoneBus
