import ZoneBus.Proofs.Reassembly.Windows
import ZoneBus.Proofs.Transfer.Packets

/-!
# The packets of several values

A packet says which one it is of how many, and not whose.  When packets of several values
reach a buffer, in any order, it publishes what comes last and in sequence: the first packet
of one value, the second one of the same or of another value, and so on, all of values with
one number of packets.  This is one of the values when they are all the same, and when a
single packet makes up the value.

## Main definitions

* `Fragment.PartOf` — a fragment is what a packet of a value brings.
* `mixed` — the first piece of one value, the second one of another, and so on.

## Main results

* `partOf_of_mem_transfer` — the packets of a value bring its parts.
* `mixed_mem_or_differ` — a mixture is one of its values, or two of them differ.
* `Buffer.publishes_mixed` — **parts of values make up mixtures of values.**
-/

namespace ZoneBus

/-- A fragment is the one with its number of the pieces of a value, as many as its count
says. -/
structure Fragment.PartOf (a : Fragment) (value : Bytes) : Prop where
  /-- The value has as many pieces. -/
  count : a.count.toNat = (chunks value).length
  /-- This is the piece with the number. -/
  bytes : (chunks value)[a.number.toNat]? = some a.bytes

/-- The first piece of the first value, the second piece of the second one, and so on. -/
def mixed (sources : List Bytes) : Bytes :=
  (sources.mapIdx fun i source => ((chunks source)[i]?).getD []).flatten

/-- The packets of a value name its paths and bring its parts. -/
theorem partOf_of_mem_transfer {targetPath sourcePath : Path} {value : Bytes}
    {packets : List Packet} {p : Packet}
    (h : transfer targetPath sourcePath value = .ok packets) (hp : p ∈ packets)
    (time : Instant) :
    (p.fragment time).PartOf value ∧ p.targetPath = targetPath ∧ p.sourcePath = sourcePath := by
  rw [transfer] at h
  split at h
  · next hle =>
    obtain rfl := Except.ok.inj h
    obtain ⟨i, hi, rfl⟩ := List.mem_mapIdx.mp hp
    have hnumber : (UInt16.ofNat i).toNat = i := toNat_ofNat (Nat.le_trans (Nat.le_of_lt hi) hle)
    refine ⟨⟨toNat_ofNat hle, ?_⟩, rfl, rfl⟩
    show (chunks value)[(UInt16.ofNat i).toNat]? = _
    rw [hnumber]
    exact List.getElem?_eq_getElem hi
  · cases h

/-! ### Mixtures -/

/-- Nothing is mixed when all pieces are of one value. -/
theorem mixed_replicate (value : Bytes) :
    mixed (List.replicate (chunks value).length value) = value := by
  have hpieces : ((List.replicate (chunks value).length value).mapIdx fun i source =>
      ((chunks source)[i]?).getD []) = chunks value := by
    refine List.ext_getElem (by simp) fun i _ hi => ?_
    simp [hi]
  rw [mixed, hpieces, chunks_flatten]

/-- **A mixture of values with as many pieces as there are values is one of them**, unless
two of them differ, and then there are two pieces at least. -/
theorem mixed_mem_or_differ {sources : List Bytes} (hne : sources ≠ [])
    (h : ∀ source ∈ sources, (chunks source).length = sources.length) :
    mixed sources ∈ sources ∨
      2 ≤ sources.length ∧ ∃ a ∈ sources, ∃ b ∈ sources, a ≠ b := by
  obtain ⟨first, rest, rfl⟩ := List.exists_cons_of_ne_nil hne
  have hfirst : first ∈ first :: rest := List.mem_cons_self
  by_cases hsame : ∀ b ∈ first :: rest, b = first
  · left
    have hall := List.eq_replicate_iff.mpr ⟨(h first hfirst).symm, hsame⟩
    have hmixed : mixed (first :: rest) = first := by
      rw [hall]
      exact mixed_replicate first
    rw [hmixed]
    exact hfirst
  · right
    push Not at hsame
    obtain ⟨b, hb, hdiffer⟩ := hsame
    have hrest : rest ≠ [] := List.ne_nil_of_mem ((List.mem_cons.mp hb).resolve_left hdiffer)
    have hpos : 0 < rest.length := List.length_pos_iff.mpr hrest
    exact ⟨Nat.succ_le_succ hpos, first, hfirst, b, hb, hdiffer.symm⟩

/-- Fragments in sequence, each a part of a value, put their values' mixture together. -/
theorem joined_eq_mixed {count : UInt16} {window : List Fragment} {source : Fragment → Bytes}
    (hs : InSequence count window) (h : ∀ a ∈ window, a.PartOf (source a)) :
    joined window = mixed (window.map source) := by
  refine congrArg List.flatten (List.ext_getElem (by simp) fun i hi _ => ?_)
  rw [List.length_map] at hi
  have hnumber : window[i].number.toNat = i := by
    have hget := List.getElem_of_eq hs.numbers (i := i) (by simpa using hi)
    simpa using hget
  have hpiece := (h window[i] (List.getElem_mem hi)).bytes
  rw [hnumber] at hpiece
  simp [hpiece]

/-- **Parts of values make up mixtures of values.**  When every fragment that a buffer is
given is a part of a value of some kind, each value that it publishes is made of as many
pieces as each of some values of the kind has: the first piece of one of them, the second
piece of one of them, and so on. -/
theorem Buffer.publishes_mixed {path : Path} {fragments : List Fragment} {kind : Bytes → Prop}
    (h : ∀ a ∈ fragments, ∃ value, kind value ∧ a.PartOf value) {i : Nat} {value : Bytes}
    (hpublished : ((fresh path).takeFragments fragments).1[i]? = some (.ok (some value))) :
    ∃ sources, sources ≠ [] ∧
      (∀ source ∈ sources, kind source ∧ (chunks source).length = sources.length) ∧
      value = mixed sources := by
  rw [getElem?_takeFragments, Option.map_eq_some_iff] at hpublished
  obtain ⟨last, hlast, hok⟩ := hpublished
  obtain ⟨window, hsuffix, hsequence, hlength, rfl⟩ :=
    (takeFragment_publishes_iff (follows_takeFragments path (fragments.take i))).mp hok
  choose! source hkind hpart using h
  have hmem : ∀ a ∈ window, a ∈ fragments := by
    intro a ha
    refine (List.mem_append.mp (hsuffix.subset ha)).elim List.mem_of_mem_take fun he => ?_
    exact List.mem_singleton.mp he ▸ List.mem_of_getElem? hlast
  -- a value has a piece, so the window is as long as the count of its last fragment
  have hpos : 0 < last.count.toNat := by
    rw [(hpart last (List.mem_of_getElem? hlast)).count]
    exact List.length_pos_iff.mpr (chunks_ne_nil _)
  rw [Nat.max_eq_left hpos] at hlength
  refine ⟨window.map source, fun hnil => ?_, fun v hv => ?_, ?_⟩
  · rw [List.map_eq_nil_iff] at hnil
    rw [hnil, List.length_nil] at hlength
    exact Nat.ne_of_lt hpos hlength
  · obtain ⟨a, ha, rfl⟩ := List.mem_map.mp hv
    refine ⟨hkind a (hmem a ha), ?_⟩
    rw [← (hpart a (hmem a ha)).count, hsequence.counts a ha, List.length_map, hlength]
  · exact joined_eq_mixed hsequence fun a ha => hpart a (hmem a ha)

end ZoneBus
