import Mathlib.Data.List.Induction
import ZoneBus.Proofs.Frame.Scanning

/-!
# The segments of a stream

What a decoder makes of a stream can be said without a state.  Every start marker
opens a segment, which goes on up to the next start marker, the next end marker, or
the byte that makes its content too long, whichever comes first.  The last one may
stay unclosed.  A stream falls into segments in one way: content that closes no segment
cannot reach past a byte that closes one, so the first such byte is in one place.

## Main definitions

* `unescape`, `dangling` — content with its escapes undone, and whether it breaks off
  after an escape marker.
* `OpenContent` — content that closes no segment.
* `Closing`, `Segment` — a segment that closes.
* `Segmented` — how a stream falls into segments.

## Main results

* `exists_segmented`, `Segmented.unique` — **a stream falls into segments in one way.**
* `Segmented.count_startMarker` — every start marker opens one of them.
-/

namespace ZoneBus

/-! ### Undoing escapes -/

/-- Content with every pair of an escape marker and a byte replaced by the complement
of that byte.  An escape marker at the end has no partner and stands for nothing. -/
def unescape : Bytes → Bytes
  | [] => []
  | [b] => if b = escapeMarker then [] else [b]
  | b :: c :: rest => if b = escapeMarker then ~~~c :: unescape rest else b :: unescape (c :: rest)

/-- Whether content breaks off after an escape marker that has no partner. -/
def dangling : Bytes → Bool
  | [] => false
  | [b] => b == escapeMarker
  | b :: c :: rest => if b = escapeMarker then dangling rest else dangling (c :: rest)

/-- What one more byte of content comes to. -/
theorem unescape_concat (b : UInt8) (content : Bytes) :
    unescape (content ++ [b]) = unescape content ++
      if dangling content = true then [~~~b] else if b = escapeMarker then [] else [b] := by
  induction content using unescape.induct with
  | case1 => simp [unescape, dangling]
  | case2 => simp [unescape, dangling]
  | case3 c h => simp [unescape, dangling, h]
  | case4 c rest ih => simpa [unescape, dangling] using ih
  | case5 c d rest h ih => simpa [unescape, dangling, h] using ih

/-- A partner is missing after an escape marker that is not a partner itself. -/
theorem dangling_concat (b : UInt8) (content : Bytes) :
    dangling (content ++ [b]) = (!dangling content && b == escapeMarker) := by
  induction content using unescape.induct with
  | case1 => simp [dangling]
  | case2 => simp [dangling]
  | case3 c h => simp [dangling, h]
  | case4 c rest ih => simpa [dangling] using ih
  | case5 c d rest h ih => simpa [dangling, h] using ih

theorem length_unescape_le (content rest : Bytes) :
    (unescape content).length ≤ (unescape (content ++ rest)).length := by
  induction rest using List.reverseRecOn with
  | nil => exact Nat.le_of_eq (by rw [List.append_nil])
  | append_singleton rest b ih =>
    rw [← List.append_assoc, unescape_concat, List.length_append]
    exact Nat.le_trans ih (Nat.le_add_right _ _)

/-- A byte makes content longer by at most one. -/
theorem length_unescape_concat_le (b : UInt8) (content : Bytes) :
    (unescape (content ++ [b])).length ≤ (unescape content).length + 1 := by
  rw [unescape_concat, List.length_append]
  split
  · simp
  · split <;> simp

/-! ### Segments -/

/-- Content that closes no segment: it holds no start and no end marker, and it is not
too long with its escapes undone. -/
structure OpenContent (content : Bytes) : Prop where
  /-- It holds no start marker. -/
  noStart : startMarker ∉ content
  /-- It holds no end marker. -/
  noEnd : endMarker ∉ content
  /-- It is not too long. -/
  short : (unescape content).length ≤ maxFrameLength

/-- What closes a segment. -/
inductive Closing where
  /-- The next start marker, which opens the next segment. -/
  | interrupted
  /-- The next end marker. -/
  | ended
  /-- The byte that makes its content too long. -/
  | overrun
deriving DecidableEq

/-- A segment that closes. -/
structure Segment where
  /-- What stands between its start marker and the byte that closes it. -/
  content : Bytes
  /-- What closes it. -/
  closing : Closing
deriving DecidableEq

/-- How a stream falls into segments: those that close, in order, the content of the
last one when it does not close, and how many bytes stand outside all of them. -/
inductive Segmented : Bytes → List Segment → Option Bytes → Nat → Prop where
  /-- Nothing is left. -/
  | empty : Segmented [] [] none 0
  /-- A byte that is no start marker stands outside. -/
  | outside {b : UInt8} {rest : Bytes} {segments : List Segment} {unclosed : Option Bytes}
      {n : Nat} (hb : b ≠ startMarker) (h : Segmented rest segments unclosed n) :
      Segmented (b :: rest) segments unclosed (n + 1)
  /-- A start marker opens a segment that the next start marker closes. -/
  | interrupted {content rest : Bytes} {segments : List Segment} {unclosed : Option Bytes}
      {n : Nat} (hc : OpenContent content)
      (h : Segmented (startMarker :: rest) segments unclosed n) :
      Segmented (startMarker :: (content ++ startMarker :: rest))
        (⟨content, .interrupted⟩ :: segments) unclosed n
  /-- A start marker opens a segment that the next end marker closes. -/
  | ended {content rest : Bytes} {segments : List Segment} {unclosed : Option Bytes} {n : Nat}
      (hc : OpenContent content) (h : Segmented rest segments unclosed n) :
      Segmented (startMarker :: (content ++ endMarker :: rest))
        (⟨content, .ended⟩ :: segments) unclosed n
  /-- A start marker opens a segment that a byte closes by making its content too long. -/
  | overrun {content rest : Bytes} {b : UInt8} {segments : List Segment}
      {unclosed : Option Bytes} {n : Nat} (hc : OpenContent content) (hstart : b ≠ startMarker)
      (hend : b ≠ endMarker) (hlong : (unescape (content ++ [b])).length = maxFrameLength + 1)
      (h : Segmented rest segments unclosed n) :
      Segmented (startMarker :: (content ++ b :: rest))
        (⟨content, .overrun⟩ :: segments) unclosed n
  /-- A start marker opens a segment that does not close. -/
  | unclosed {content : Bytes} (hc : OpenContent content) :
      Segmented (startMarker :: content) [] (some content) 0

theorem openContent_nil : OpenContent [] :=
  ⟨List.not_mem_nil, List.not_mem_nil, Nat.zero_le _⟩

/-- Content closes nothing when it goes on to content that closes nothing. -/
theorem OpenContent.of_append {content rest : Bytes} (h : OpenContent (content ++ rest)) :
    OpenContent content :=
  ⟨fun hm => h.noStart (List.mem_append_left _ hm), fun hm => h.noEnd (List.mem_append_left _ hm),
    Nat.le_trans (length_unescape_le content rest) h.short⟩

/-- A byte closes nothing after some content when it is no marker and the content does
not get too long. -/
theorem OpenContent.concat {content : Bytes} {b : UInt8} (h : OpenContent content)
    (hstart : b ≠ startMarker) (hend : b ≠ endMarker)
    (hshort : (unescape (content ++ [b])).length ≤ maxFrameLength) :
    OpenContent (content ++ [b]) := by
  refine ⟨?_, ?_, hshort⟩
  · simp [h.noStart, hstart.symm]
  · simp [h.noEnd, hend.symm]

/-! ### One way to fall into segments -/

/-- **Every stream falls into segments.** -/
theorem exists_segmented (stream : Bytes) :
    ∃ segments unclosed n, Segmented stream segments unclosed n := by
  -- by induction on what is left, outside a segment and inside one at once
  have both : ∀ rest : Bytes, (∃ segments unclosed n, Segmented rest segments unclosed n) ∧
      ∀ content, OpenContent content → ∃ segments unclosed n,
        Segmented (startMarker :: (content ++ rest)) segments unclosed n := by
    intro rest
    induction rest with
    | nil =>
      refine ⟨⟨[], none, 0, .empty⟩, fun content hc => ⟨[], some content, 0, ?_⟩⟩
      rw [List.append_nil]
      exact .unclosed hc
    | cons b rest ih =>
      obtain ⟨⟨segments, unclosed, n, hout⟩, hin⟩ := ih
      obtain ⟨segments', unclosed', n', hstart⟩ := hin [] openContent_nil
      rw [List.nil_append] at hstart
      refine ⟨?_, fun content hc => ?_⟩
      · by_cases hb : b = startMarker
        · subst hb
          exact ⟨_, _, _, hstart⟩
        · exact ⟨_, _, _, .outside hb hout⟩
      · by_cases hb : b = startMarker
        · subst hb
          exact ⟨_, _, _, .interrupted hc hstart⟩
        · by_cases he : b = endMarker
          · subst he
            exact ⟨_, _, _, .ended hc hout⟩
          · by_cases hlong : (unescape (content ++ [b])).length ≤ maxFrameLength
            · have hmore := hin (content ++ [b]) (hc.concat hb he hlong)
              rw [← List.append_cons] at hmore
              exact hmore
            · have hone := length_unescape_concat_le b content
              have hshort := hc.short
              exact ⟨_, _, _, .overrun hc hb he (by omega) hout⟩
  exact (both stream).1

/-- Content that closes nothing does not reach past a byte that closes a segment. -/
theorem OpenContent.ne_append {content content' rest : Bytes} {b : UInt8}
    (h : OpenContent content') (hb : ¬OpenContent (content ++ [b])) :
    content' ≠ content ++ b :: rest := by
  rintro rfl
  rw [List.append_cons] at h
  exact hb h.of_append

/-- The first byte that closes a segment is in one place. -/
theorem OpenContent.first_unique {content content' rest rest' : Bytes} {b b' : UInt8}
    (h : OpenContent content) (h' : OpenContent content') (hb : ¬OpenContent (content ++ [b]))
    (hb' : ¬OpenContent (content' ++ [b'])) (he : content ++ b :: rest = content' ++ b' :: rest') :
    content = content' ∧ b = b' ∧ rest = rest' := by
  -- the shorter content and the byte after it would stand inside the longer one
  rcases List.append_eq_append_iff.mp he with ⟨more, hmore, hrest⟩ | ⟨more, hmore, hrest⟩
  · cases more with
    | nil =>
      rw [List.append_nil] at hmore
      exact ⟨hmore.symm, List.cons.inj hrest⟩
    | cons c more =>
      obtain ⟨rfl, _⟩ := List.cons.inj hrest
      exact absurd hmore (h'.ne_append hb)
  · cases more with
    | nil =>
      rw [List.append_nil] at hmore
      obtain ⟨hbyte, hrests⟩ := List.cons.inj hrest
      exact ⟨hmore, hbyte.symm, hrests.symm⟩
    | cons c more =>
      obtain ⟨rfl, _⟩ := List.cons.inj hrest
      exact absurd hmore (h.ne_append hb')

/-- What a byte closes a segment as. -/
def Closing.ofByte (b : UInt8) : Closing :=
  if b = startMarker then .interrupted else if b = endMarker then .ended else .overrun

/-- What is left of a stream after the byte that closes a segment: a start marker
opens the next one. -/
def afterClosing (b : UInt8) (rest : Bytes) : Bytes :=
  if b = startMarker then b :: rest else rest

theorem Closing.ofByte_of_ne {b : UInt8} (hstart : b ≠ startMarker) (hend : b ≠ endMarker) :
    ofByte b = .overrun := by
  rw [ofByte, if_neg hstart, if_neg hend]

theorem afterClosing_of_ne {b : UInt8} (hstart : b ≠ startMarker) (rest : Bytes) :
    afterClosing b rest = rest := by
  rw [afterClosing, if_neg hstart]

theorem not_openContent_startMarker (content : Bytes) : ¬OpenContent (content ++ [startMarker]) :=
  fun h => h.noStart (List.mem_append_right _ (List.mem_singleton_self _))

theorem not_openContent_endMarker (content : Bytes) : ¬OpenContent (content ++ [endMarker]) :=
  fun h => h.noEnd (List.mem_append_right _ (List.mem_singleton_self _))

theorem not_openContent_of_long {content : Bytes}
    (h : (unescape content).length = maxFrameLength + 1) : ¬OpenContent content :=
  fun hc => absurd hc.short (by omega)

namespace Segmented

variable {stream content p rest : Bytes} {b : UInt8} {segments : List Segment}
  {unclosed : Option Bytes} {n : Nat}

/-- What follows a start marker closes nothing, or has a first byte that closes. -/
theorem of_startMarker (h : Segmented (startMarker :: p) segments unclosed n) :
    (OpenContent p ∧ segments = [] ∧ unclosed = some p ∧ n = 0) ∨
      ∃ content b rest segments', p = content ++ b :: rest ∧ OpenContent content ∧
        ¬OpenContent (content ++ [b]) ∧ segments = ⟨content, .ofByte b⟩ :: segments' ∧
        Segmented (afterClosing b rest) segments' unclosed n := by
  generalize hs : startMarker :: p = stream at h
  cases h with
  | empty => cases hs
  | outside hb h => exact absurd (List.cons.inj hs).1.symm hb
  | interrupted hc h =>
    obtain rfl := (List.cons.inj hs).2
    exact .inr ⟨_, _, _, _, rfl, hc, not_openContent_startMarker _, rfl, h⟩
  | ended hc h =>
    obtain rfl := (List.cons.inj hs).2
    exact .inr ⟨_, _, _, _, rfl, hc, not_openContent_endMarker _, rfl, h⟩
  | @overrun content rest b segments' _ _ hc hstart hend hlong h =>
    obtain rfl := (List.cons.inj hs).2
    rw [← afterClosing_of_ne hstart rest] at h
    rw [← Closing.ofByte_of_ne hstart hend]
    exact .inr ⟨_, _, _, _, rfl, hc, not_openContent_of_long hlong, rfl, h⟩
  | unclosed hc =>
    obtain rfl := (List.cons.inj hs).2
    exact .inl ⟨hc, rfl, rfl, rfl⟩

/-- A segment closes at the first byte that closes it, however the stream goes on. -/
theorem of_closed (h : Segmented (startMarker :: (content ++ b :: rest)) segments unclosed n)
    (hc : OpenContent content) (hb : ¬OpenContent (content ++ [b])) :
    ∃ segments', segments = ⟨content, .ofByte b⟩ :: segments' ∧
      Segmented (afterClosing b rest) segments' unclosed n := by
  rcases h.of_startMarker with ⟨hopen, _⟩ | ⟨content', b', rest', segments', he, hc', hb', hseg, h⟩
  · exact absurd rfl (hopen.ne_append hb)
  · obtain ⟨rfl, rfl, rfl⟩ := hc.first_unique hc' hb hb' he
    exact ⟨segments', hseg, h⟩

/-- **A stream falls into segments in one way.** -/
theorem unique (h : Segmented stream segments unclosed n) :
    ∀ {segments' unclosed' n'}, Segmented stream segments' unclosed' n' →
      segments' = segments ∧ unclosed' = unclosed ∧ n' = n := by
  induction h with
  | empty =>
    intro segments' unclosed' n' h'
    cases h'
    exact ⟨rfl, rfl, rfl⟩
  | outside hb h ih =>
    intro segments' unclosed' n' h'
    cases h' with
    | outside _ h' =>
      obtain ⟨rfl, rfl, rfl⟩ := ih h'
      exact ⟨rfl, rfl, rfl⟩
    | _ => exact absurd rfl hb
  | interrupted hc h ih =>
    intro segments' unclosed' n' h'
    obtain ⟨more, rfl, hmore⟩ := h'.of_closed hc (not_openContent_startMarker _)
    obtain ⟨rfl, rfl, rfl⟩ := ih hmore
    exact ⟨rfl, rfl, rfl⟩
  | ended hc h ih =>
    intro segments' unclosed' n' h'
    obtain ⟨more, rfl, hmore⟩ := h'.of_closed hc (not_openContent_endMarker _)
    obtain ⟨rfl, rfl, rfl⟩ := ih hmore
    exact ⟨rfl, rfl, rfl⟩
  | overrun hc hstart hend hlong h ih =>
    intro segments' unclosed' n' h'
    obtain ⟨more, rfl, hmore⟩ := h'.of_closed hc (not_openContent_of_long hlong)
    rw [afterClosing_of_ne hstart] at hmore
    obtain ⟨rfl, rfl, rfl⟩ := ih hmore
    rw [Closing.ofByte_of_ne hstart hend]
    exact ⟨rfl, rfl, rfl⟩
  | unclosed hc =>
    intro segments' unclosed' n' h'
    rcases h'.of_startMarker with ⟨_, rfl, rfl, rfl⟩ | ⟨content', b', rest', _, he, _, hb', _⟩
    · exact ⟨rfl, rfl, rfl⟩
    · exact absurd he (hc.ne_append hb')

/-- Every start marker opens a segment. -/
theorem count_startMarker (h : Segmented stream segments unclosed n) :
    stream.count startMarker = segments.length + unclosed.toList.length := by
  induction h with
  | empty => rfl
  | outside hb h ih => rw [List.count_cons_of_ne hb, ih]
  | interrupted hc h ih =>
    rw [List.count_cons_self, List.count_append, List.count_eq_zero.mpr hc.noStart, ih,
      List.length_cons]
    omega
  | ended hc h ih =>
    rw [List.count_cons_self, List.count_append, List.count_eq_zero.mpr hc.noStart,
      List.count_cons_of_ne (by decide), ih, List.length_cons]
    omega
  | overrun hc hstart hend hlong h ih =>
    rw [List.count_cons_self, List.count_append, List.count_eq_zero.mpr hc.noStart,
      List.count_cons_of_ne hstart, ih, List.length_cons]
    omega
  | unclosed hc =>
    rw [List.count_cons_self, List.count_eq_zero.mpr hc.noStart]
    rfl

/-- The content of a segment closes nothing before its closing does. -/
theorem openContent_of_mem (h : Segmented stream segments unclosed n) :
    ∀ s ∈ segments, OpenContent s.content := by
  induction h with
  | empty => exact fun _ hm => by cases hm
  | outside _ _ ih => exact ih
  | interrupted hc _ ih => exact List.forall_mem_cons.mpr ⟨hc, ih⟩
  | ended hc _ ih => exact List.forall_mem_cons.mpr ⟨hc, ih⟩
  | overrun hc _ _ _ _ ih => exact List.forall_mem_cons.mpr ⟨hc, ih⟩
  | unclosed _ => exact fun _ hm => by cases hm

end Segmented

end ZoneBus
