import Mathlib.Data.List.Induction
import ZoneBus.Proofs.Reassembly.Sequence

/-!
# What a published value is made of

A buffer remembers little of the fragments it was given: the number that comes next,
the count, and the bytes of the transfer in progress.  What it publishes can still be
told from the fragments alone.  The transfer in progress is that of the last few, when
these are numbered from zero on and carry one count that they do not yet reach; and a
fragment publishes a value exactly when it is the last of as many such fragments as
its count says, whatever came before them.

## Main definitions

* `Fragment`, `Packet.fragment` — a fragment with its number and count, as a buffer takes it.
* `InSequence` — fragments numbered from zero on, all with one count.
* `Buffer.takeFragments` — a buffer takes fragments one after another.
* `Buffer.Follows` — the transfer in progress is that of the last fragments.

## Main results

* `Buffer.continued?_iff` — which transfer a fragment goes on with.
* `Buffer.follows_takeFragments` — a buffer follows the fragments it was given.
* `Buffer.publishes_iff_window` — **a value is published exactly when as many fragments
  as their count says have come last and in sequence.**
-/

namespace ZoneBus

/-! ### Fragments in sequence -/

/-- A fragment of a value, with the number and count of its packet. -/
structure Fragment where
  /-- When it arrives. -/
  time : Instant
  /-- Its place in the transfer. -/
  number : UInt16
  /-- How many fragments the transfer has. -/
  count : UInt16
  /-- Its bytes. -/
  bytes : Bytes
deriving DecidableEq

/-- What a packet brings when it arrives at some time. -/
def Packet.fragment (p : Packet) (time : Instant) : Fragment := ⟨time, p.number, p.count, p.data⟩

/-- Fragments numbered from zero on, all with the same count. -/
structure InSequence (count : UInt16) (window : List Fragment) : Prop where
  /-- The numbers have no gap and no repeat. -/
  numbers : window.map (fun a => a.number.toNat) = List.range window.length
  /-- The count does not change. -/
  counts : ∀ a ∈ window, a.count = count

/-- The bytes of some fragments, put together. -/
def joined (window : List Fragment) : Bytes := (window.map Fragment.bytes).flatten

theorem inSequence_nil (count : UInt16) : InSequence count [] :=
  ⟨rfl, fun _ hm => by cases hm⟩

/-- One more fragment is in sequence when its number is how many came before. -/
theorem inSequence_concat {count : UInt16} {window : List Fragment} {a : Fragment} :
    InSequence count (window ++ [a]) ↔
      InSequence count window ∧ a.number.toNat = window.length ∧ a.count = count := by
  constructor
  · rintro ⟨hnumbers, hcounts⟩
    rw [List.map_append, List.length_append, List.length_singleton, List.range_succ,
      List.map_singleton, List.append_singleton_inj] at hnumbers
    rw [List.forall_mem_append, List.forall_mem_singleton] at hcounts
    exact ⟨⟨hnumbers.1, hcounts.1⟩, hnumbers.2, hcounts.2⟩
  · rintro ⟨⟨hnumbers, hcounts⟩, hnumber, hcount⟩
    refine ⟨?_, ?_⟩
    · simp [List.range_succ, hnumbers, hnumber]
    · rw [List.forall_mem_append, List.forall_mem_singleton]
      exact ⟨hcounts, hcount⟩

/-! ### A buffer and the fragments it was given -/

namespace Buffer

/-- The transfer that fragments in sequence build up. -/
def gathered (count : UInt16) (window : List Fragment) : OpenTransfer :=
  ⟨(window.map Fragment.bytes).reverse, UInt16.ofNat window.length, count⟩

theorem bytes_gathered (count : UInt16) (window : List Fragment) :
    (gathered count window).bytes = joined window := by
  rw [OpenTransfer.bytes, gathered, List.reverse_reverse, joined]

/-- Takes a fragment. -/
def takeFragment (b : Buffer) (a : Fragment) : Except BufferError (Option Bytes) × Buffer :=
  b.writePacket a.time a.number a.count a.bytes

/-- Takes fragments one after another. -/
def takeFragments (b : Buffer) :
    List Fragment → List (Except BufferError (Option Bytes)) × Buffer
  | [] => ([], b)
  | a :: rest =>
    let (answer, b') := b.takeFragment a
    let (answers, b'') := b'.takeFragments rest
    (answer :: answers, b'')

/-- The value that an answer publishes. -/
def published? : Except BufferError (Option Bytes) → Option Bytes
  | .ok value => value
  | .error _ => none

theorem takeFragments_concat (as : List Fragment) (a : Fragment) : ∀ (b : Buffer),
    b.takeFragments (as ++ [a]) =
      ((b.takeFragments as).1 ++ [((b.takeFragments as).2.takeFragment a).1],
        ((b.takeFragments as).2.takeFragment a).2) := by
  induction as with
  | nil => exact fun _ => rfl
  | cons a' as ih =>
    intro b
    rw [List.cons_append, takeFragments, takeFragments]
    dsimp only
    rw [ih]
    rfl

theorem length_takeFragments (as : List Fragment) : ∀ (b : Buffer),
    (b.takeFragments as).1.length = as.length := by
  induction as with
  | nil => exact fun _ => rfl
  | cons a as ih =>
    intro b
    rw [takeFragments, List.length_cons, List.length_cons, ih]

/-- Each fragment is answered by the buffer that those before it left. -/
theorem getElem?_takeFragments (as : List Fragment) : ∀ (b : Buffer) (i : Nat),
    (b.takeFragments as).1[i]? =
      as[i]?.map fun a => ((b.takeFragments (as.take i)).2.takeFragment a).1 := by
  induction as with
  | nil => exact fun _ _ => rfl
  | cons a as ih =>
    intro b i
    cases i with
    | zero => rfl
    | succ i =>
      rw [takeFragments, List.getElem?_cons_succ, List.getElem?_cons_succ, ih, List.take_succ_cons]
      rfl

/-! ### One fragment -/

section Step

variable {b : Buffer} {past window : List Fragment} {a : Fragment} {t : OpenTransfer}

/-- The transfer that a fragment goes on with: a new one for number zero, and for any
other number the one in progress, when that waits for this fragment. -/
def continued? (b : Buffer) (a : Fragment) : Option OpenTransfer :=
  if a.number = 0 then some (.start a.count)
  else b.transfer.filter fun t => a.number = t.next ∧ a.count = t.count

theorem takeFragment_of_continued (h : b.continued? a = some t) :
    b.takeFragment a = (.ok (b.accept a.time t a.number a.bytes).1,
      (b.accept a.time t a.number a.bytes).2) := by
  rw [takeFragment, writePacket]
  rw [continued?] at h
  split
  · next hzero =>
    rw [if_pos hzero] at h
    rw [← Option.some.inj h]
  · next hzero =>
    rw [if_neg hzero, Option.filter_eq_some_iff, decide_eq_true_eq] at h
    obtain ⟨ht, hnext⟩ := h
    rw [ht]
    dsimp only
    rw [if_pos hnext]

/-- A fragment that goes on with nothing is refused, and nothing is in progress then. -/
theorem takeFragment_of_refused (h : b.continued? a = none) :
    ∃ error, b.takeFragment a = (.error error, b.abandon) := by
  rw [takeFragment, writePacket]
  rw [continued?] at h
  split at h
  · cases h
  · next hzero =>
    rw [if_neg hzero]
    cases ht : b.transfer with
    | none =>
      have hsame : b.abandon = b := by rw [abandon, ← ht]
      exact ⟨_, by rw [hsame]⟩
    | some t =>
      have hnext : ¬(a.number = t.next ∧ a.count = t.count) := by simpa [hzero, ht] using h
      dsimp only
      rw [if_neg hnext]
      exact ⟨_, rfl⟩

/-- A fragment in sequence after others completes their transfer when it reaches their
count. -/
theorem accept_completes (hnumber : a.number.toNat = window.length)
    (h : a.count.toNat ≤ window.length + 1) :
    (b.accept a.time (gathered a.count window) a.number a.bytes).1 =
        some (joined (window ++ [a])) ∧
      (b.accept a.time (gathered a.count window) a.number a.bytes).2.transfer = none := by
  rw [← hnumber, ← le_nextNumber_iff] at h
  rw [accept_of_le h, bytes_gathered]
  exact ⟨by simp [joined], rfl⟩

/-- Otherwise it is added to their transfer. -/
theorem accept_goesOn (hnumber : a.number.toNat = window.length)
    (h : ¬a.count.toNat ≤ window.length + 1) :
    (b.accept a.time (gathered a.count window) a.number a.bytes).1 = none ∧
      (b.accept a.time (gathered a.count window) a.number a.bytes).2.transfer =
        some (gathered a.count (window ++ [a])) := by
  have hcount : a.count.toNat < 65536 := a.count.toNat_lt
  have hnext : nextNumber a.number = UInt16.ofNat (window ++ [a]).length := by
    have hofNat : a.number = UInt16.ofNat window.length := by
      apply UInt16.toNat_inj.mp
      rw [hnumber, toNat_ofNat (by omega)]
    rw [hofNat, nextNumber_ofNat (by omega), List.length_append, List.length_singleton]
  rw [← hnumber, ← le_nextNumber_iff] at h
  rw [accept_of_lt h, hnext]
  refine ⟨rfl, congrArg some ?_⟩
  simp [gathered, OpenTransfer.add]

/-- The transfer in progress is that of the fragments that came last: they are in
sequence, and their count is not reached. -/
def Follows (b : Buffer) (past : List Fragment) : Prop :=
  ∀ t, b.transfer = some t ↔ ∃ count window, window ≠ [] ∧ window <:+ past ∧
    InSequence count window ∧ window.length < count.toNat ∧ t = gathered count window

/-- Fragments that a fragment goes on with: they came last, it is in sequence after
them, and their count was not reached before it. -/
structure Continues (past window : List Fragment) (a : Fragment) : Prop where
  /-- They came last. -/
  last : window <:+ past
  /-- The fragment is in sequence after them. -/
  inSequence : InSequence a.count (window ++ [a])
  /-- Their count was not reached. -/
  unfinished : window ≠ [] → window.length < a.count.toNat

theorem Continues.number (h : Continues past window a) : a.number.toNat = window.length :=
  (inSequence_concat.mp h.inSequence).2.1

/-- The number of a fragment tells how many fragments it goes on with. -/
theorem Continues.unique {window' : List Fragment} (h : Continues past window a)
    (h' : Continues past window' a) : window = window' := by
  have hlength : window.length = window'.length := h.number.symm.trans h'.number
  exact (List.suffix_of_suffix_length_le h.last h'.last (Nat.le_of_eq hlength)).eq_of_length hlength

/-- Fragments in sequence that end in a fragment are those it goes on with, and it. -/
theorem continues_of_suffix {count : UInt16} {window' : List Fragment} (hne : window' ≠ [])
    (hlast : window' <:+ past ++ [a]) (hs : InSequence count window')
    (hle : window'.length ≤ max count.toNat 1) :
    count = a.count ∧ ∃ window, window' = window ++ [a] ∧ Continues past window a := by
  obtain ⟨window, rfl, hsuffix⟩ := (List.suffix_concat_iff.mp hlast).resolve_left hne
  obtain rfl := (inSequence_concat.mp hs).2.2
  refine ⟨rfl, window, rfl, hsuffix, hs, fun hw => ?_⟩
  have hpos : 0 < window.length := List.length_pos_iff.mpr hw
  rw [List.length_append, List.length_singleton] at hle
  omega

/-- **Which transfer a fragment goes on with**: that of the fragments it is in sequence
after, or a new one when there are none. -/
theorem continued?_iff (h : b.Follows past) :
    b.continued? a = some t ↔ ∃ window, Continues past window a ∧ t = gathered a.count window := by
  rw [continued?]
  by_cases hzero : a.number = 0
  · rw [if_pos hzero, Option.some.injEq]
    have hlength : a.number.toNat = 0 := by rw [hzero]; rfl
    constructor
    · rintro rfl
      have hone : InSequence a.count ([] ++ [a]) :=
        inSequence_concat.mpr ⟨inSequence_nil _, hlength, rfl⟩
      exact ⟨[], ⟨List.nil_suffix, hone, fun hn => absurd rfl hn⟩, rfl⟩
    · rintro ⟨window, hc, rfl⟩
      obtain rfl : window = [] := List.length_eq_zero_iff.mp (hc.number.symm.trans hlength)
      rfl
  · rw [if_neg hzero, Option.filter_eq_some_iff, decide_eq_true_eq, h t]
    constructor
    · rintro ⟨⟨count, window, hne, hlast, hs, hlt, rfl⟩, hnext, hcount⟩
      have hbound : count.toNat < 65536 := count.toNat_lt
      obtain rfl : a.count = count := hcount
      have hnumber : a.number.toNat = window.length := by
        rw [hnext, gathered, toNat_ofNat (by omega)]
      exact ⟨window, ⟨hlast, inSequence_concat.mpr ⟨hs, hnumber, rfl⟩, fun _ => hlt⟩, rfl⟩
    · rintro ⟨window, hc, rfl⟩
      have hne : window ≠ [] := by
        rintro rfl
        exact hzero (UInt16.toNat_inj.mp hc.number)
      have hlt := hc.unfinished hne
      have hbound : a.count.toNat < 65536 := a.count.toNat_lt
      refine ⟨⟨_, window, hne, hc.last, (inSequence_concat.mp hc.inSequence).1, hlt, rfl⟩, ?_, rfl⟩
      apply UInt16.toNat_inj.mp
      rw [hc.number, gathered, toNat_ofNat (by omega)]

/-- **A fragment publishes** exactly when it is the last of as many fragments in
sequence as its count says; a count of zero asks for one. -/
theorem takeFragment_publishes_iff (h : b.Follows past) {value : Bytes} :
    (b.takeFragment a).1 = .ok (some value) ↔
      ∃ window, window <:+ past ++ [a] ∧ InSequence a.count window ∧
        window.length = max a.count.toNat 1 ∧ value = joined window := by
  constructor
  · intro hok
    cases hc : b.continued? a with
    | none =>
      obtain ⟨error, herror⟩ := takeFragment_of_refused hc
      rw [herror] at hok
      cases hok
    | some t =>
      obtain ⟨window, hw, rfl⟩ := (continued?_iff h).mp hc
      rw [takeFragment_of_continued hc] at hok
      replace hok := Except.ok.inj hok
      by_cases hle : a.count.toNat ≤ window.length + 1
      · rw [(accept_completes hw.number hle).1] at hok
        refine ⟨window ++ [a], List.suffix_concat_iff.mpr (Or.inr ⟨window, rfl, hw.last⟩),
          hw.inSequence, ?_, (Option.some.inj hok).symm⟩
        rw [List.length_append, List.length_singleton]
        by_cases hne : window = []
        · subst hne
          exact (Nat.max_eq_right hle).symm
        · have hlt := hw.unfinished hne
          omega
      · rw [(accept_goesOn hw.number hle).1] at hok
        cases hok
  · rintro ⟨window', hlast, hs, hlength, rfl⟩
    have hne : window' ≠ [] := by
      rintro rfl
      rw [List.length_nil] at hlength
      omega
    obtain ⟨_, window, rfl, hw⟩ := continues_of_suffix hne hlast hs (Nat.le_of_eq hlength)
    have hc := (continued?_iff h).mpr ⟨window, hw, rfl⟩
    rw [List.length_append, List.length_singleton] at hlength
    rw [takeFragment_of_continued hc, (accept_completes hw.number (by omega)).1]

/-- A buffer goes on following when it takes a fragment. -/
theorem follows_takeFragment (h : b.Follows past) (a : Fragment) :
    (b.takeFragment a).2.Follows (past ++ [a]) := by
  -- unfinished fragments in sequence end in the one that is taken
  have hback : ∀ {count window'}, window' ≠ [] → window' <:+ past ++ [a] →
      InSequence count window' → window'.length < count.toNat →
      count = a.count ∧ ∃ window, window' = window ++ [a] ∧ Continues past window a :=
    fun hne hlast hs hlt => continues_of_suffix hne hlast hs (by omega)
  intro t
  cases hc : b.continued? a with
  | none =>
    obtain ⟨error, herror⟩ := takeFragment_of_refused hc
    rw [herror]
    refine iff_of_false (fun ht => by cases ht) ?_
    rintro ⟨count, window', hne, hlast, hs, hlt, _⟩
    obtain ⟨_, window, _, hw⟩ := hback hne hlast hs hlt
    have hsome := (continued?_iff h).mpr ⟨window, hw, rfl⟩
    rw [hc] at hsome
    cases hsome
  | some t' =>
    obtain ⟨window, hw, rfl⟩ := (continued?_iff h).mp hc
    rw [takeFragment_of_continued hc]
    by_cases hle : a.count.toNat ≤ window.length + 1
    · rw [(accept_completes hw.number hle).2]
      refine iff_of_false (fun ht => by cases ht) ?_
      rintro ⟨count, window', hne, hlast, hs, hlt, _⟩
      obtain ⟨rfl, window₁, rfl, hw₁⟩ := hback hne hlast hs hlt
      rw [hw₁.unique hw, List.length_append, List.length_singleton] at hlt
      omega
    · rw [(accept_goesOn hw.number hle).2, Option.some.injEq]
      constructor
      · rintro rfl
        refine ⟨a.count, window ++ [a], by simp,
          List.suffix_concat_iff.mpr (Or.inr ⟨window, rfl, hw.last⟩), hw.inSequence, ?_, rfl⟩
        rw [List.length_append, List.length_singleton]
        omega
      · rintro ⟨count, window', hne, hlast, hs, hlt, rfl⟩
        obtain ⟨rfl, window₁, rfl, hw₁⟩ := hback hne hlast hs hlt
        rw [hw₁.unique hw]

/-- What can be read changes only when a fragment publishes. -/
theorem read_takeFragment (b : Buffer) (a : Fragment) :
    (b.takeFragment a).2.read = (published? (b.takeFragment a).1).or b.read := by
  cases hc : b.continued? a with
  | none =>
    obtain ⟨error, herror⟩ := takeFragment_of_refused hc
    rw [herror]
    rfl
  | some t =>
    rw [takeFragment_of_continued hc, accept]
    dsimp only
    split
    · rfl
    · rfl

end Step

/-! ### All fragments -/

/-- **A buffer follows the fragments it was given.** -/
theorem follows_takeFragments (path : Path) (past : List Fragment) :
    ((fresh path).takeFragments past).2.Follows past := by
  induction past using List.reverseRecOn with
  | nil =>
    refine fun t => iff_of_false (fun ht => by cases ht) ?_
    rintro ⟨count, window, hne, hlast, _⟩
    exact hne (List.suffix_nil.mp hlast)
  | append_singleton past a ih =>
    rw [takeFragments_concat]
    exact follows_takeFragment ih a

/-- What can be read is the value that was published last. -/
theorem read_takeFragments (path : Path) (past : List Fragment) :
    ((fresh path).takeFragments past).2.read =
      (((fresh path).takeFragments past).1.filterMap published?).getLast? := by
  induction past using List.reverseRecOn with
  | nil => rfl
  | append_singleton past a ih =>
    rw [takeFragments_concat]
    dsimp only
    rw [read_takeFragment, ih, List.filterMap_append, List.getLast?_append]
    cases hp : published? (((fresh path).takeFragments past).2.takeFragment a).1 <;> simp [hp]

/-- **A value is published exactly when as many fragments as their count says have come
last and in sequence.**  A fresh buffer is given fragments with any numbers, counts and
bytes.  Each is answered.  The answer is a published value exactly when the fragments
up to this one end in as many as its count says (one, for a count of zero), numbered
from zero on and all with that count; the value is then what these brought, in order.
What can be read in the end is the value that was published last. -/
theorem publishes_iff_window (path : Path) (fragments : List Fragment) :
    let taken := (fresh path).takeFragments fragments
    taken.1.length = fragments.length ∧
      (∀ i value, taken.1[i]? = some (.ok (some value)) ↔
        ∃ a window, fragments[i]? = some a ∧ window <:+ fragments.take (i + 1) ∧
          window.length = max a.count.toNat 1 ∧
          window.map (fun w => w.number.toNat) = List.range window.length ∧
          (∀ w ∈ window, w.count = a.count) ∧
          value = (window.map Fragment.bytes).flatten) ∧
      taken.2.read = (taken.1.filterMap published?).getLast? := by
  refine ⟨length_takeFragments fragments _, fun i value => ?_, read_takeFragments path fragments⟩
  rw [getElem?_takeFragments, Option.map_eq_some_iff]
  refine exists_congr fun a => ?_
  constructor
  · rintro ⟨ha, hok⟩
    obtain ⟨window, hlast, hs, hlength, hvalue⟩ :=
      (takeFragment_publishes_iff (follows_takeFragments path (fragments.take i))).mp hok
    rw [List.take_add_one, ha]
    exact ⟨window, rfl, hlast, hlength, hs.numbers, hs.counts, hvalue⟩
  · rintro ⟨window, ha, hlast, hlength, hnumbers, hcounts, hvalue⟩
    rw [List.take_add_one, ha] at hlast
    exact ⟨ha, (takeFragment_publishes_iff (follows_takeFragments path (fragments.take i))).mpr
      ⟨window, hlast, ⟨hnumbers, hcounts⟩, hlength, hvalue⟩⟩

/-- A lost fragment takes its transfer with it; a count of zero asks for one fragment. -/
example : ((fresh .root).takeFragments
    [⟨0, 0, 3, [1]⟩, ⟨1, 2, 3, [3]⟩, ⟨2, 0, 2, [4]⟩, ⟨3, 1, 2, [5]⟩, ⟨4, 0, 0, [6]⟩]).1 =
      [.ok none, .error (.outOfSequence .root 1 3 2 3), .ok none, .ok (some [4, 5]),
        .ok (some [6])] := by
  rfl

end Buffer

end ZoneBus
