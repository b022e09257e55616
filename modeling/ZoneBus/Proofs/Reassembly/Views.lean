import ZoneBus.Proofs.Reassembly.Windows
import ZoneBus.Proofs.Runs
import ZoneBus.Subscription

/-!
# What the subscribers of a place are shown

A place is given fragments, and is forgotten now and then.  Each fragment that its buffer
accepts is shown to the subscribers, and the value that it completes is shown right after
it; a fragment that is refused is not shown at all.  So what is shown tells by itself what
the values are made of: no fragment that went into a value is missing, and none that did
not stands between them.

## Main definitions

* `PlaceEvent` — what comes to a place.
* `Buffer.undergo` — what a buffer makes of it.
* `PlaceEvent.shown`, `Buffer.view` — what is shown of it, and of everything that comes.
* `EndsWhole` — right before a value, its fragments are shown, from the first to the last.

## Main results

* `Buffer.endsWhole_view` — **every value that is shown follows right after its
  fragments.**
-/

namespace ZoneBus

/-- What comes to a place. -/
inductive PlaceEvent where
  /-- A fragment of a value. -/
  | fragment (a : Fragment)
  /-- The place is forgotten. -/
  | forgotten
deriving DecidableEq

/-- What is shown of a fragment that is accepted. -/
def Fragment.update (place : Place) (a : Fragment) : PathUpdate :=
  .fragment place.1 place.2 a.number a.count a.bytes

/-- What is shown of an event that is answered like this. -/
def PlaceEvent.shown (place : Place) :
    PlaceEvent → Except BufferError (Option Bytes) → List PathUpdate
  | fragment a, .ok none => [a.update place]
  | fragment a, .ok (some value) => [a.update place, .complete place.1 place.2 value]
  | fragment _, .error _ => []
  | forgotten, _ => []

/-- The updates that were shown last are those of fragments that make up a value: numbered
from zero on, all with one count, and as many as that says (one, for a count of zero). -/
def JustShown (place : Place) (seen : List PathUpdate) (value : Bytes) : Prop :=
  ∃ (earlier : List PathUpdate) (count : UInt16) (window : List Fragment),
    seen = earlier ++ window.map (Fragment.update place) ∧
      window.length = max count.toNat 1 ∧
      window.map (fun a => a.number.toNat) = List.range window.length ∧
      (∀ a ∈ window, a.count = count) ∧ value = (window.map Fragment.bytes).flatten

/-- Every value is shown right after the fragments that make it up. -/
def EndsWhole (place : Place) (seen : List PathUpdate) : Prop :=
  ∀ before value after, seen = before ++ .complete place.1 place.2 value :: after →
    JustShown place before value

theorem endsWhole_nil (place : Place) : EndsWhole place [] := by
  intro before value after he
  simp at he

/-- One more update, which shows no value or one whose fragments were just shown. -/
theorem EndsWhole.concat {place : Place} {seen : List PathUpdate} (h : EndsWhole place seen)
    {u : PathUpdate}
    (hu : ∀ value, u = .complete place.1 place.2 value → JustShown place seen value) :
    EndsWhole place (seen ++ [u]) := by
  intro before value after he
  rcases List.eq_nil_or_concat after with rfl | ⟨after, last, rfl⟩
  · obtain ⟨rfl, hlast⟩ := List.append_inj' he rfl
    exact hu value (List.cons.inj hlast).1
  · rw [List.concat_eq_append, ← List.cons_append, ← List.append_assoc] at he
    exact h before value after (List.append_inj' he rfl).1

namespace Buffer

/-- What a buffer makes of an event. -/
def undergo (path : Path) (b : Buffer) : PlaceEvent → Except BufferError (Option Bytes) × Buffer
  | .fragment a => b.takeFragment a
  | .forgotten => (.ok none, fresh path)

/-- What is shown of all events. -/
def view (place : Place) (b : Buffer) (events : List PlaceEvent) : List PathUpdate :=
  (List.zipWith (PlaceEvent.shown place) events (runOps (undergo place.2) b events).1).flatten

variable {place : Place} {b : Buffer} {seen : List PathUpdate}

theorem view_cons (place : Place) (b : Buffer) (event : PlaceEvent) (events : List PlaceEvent) :
    b.view place (event :: events) =
      event.shown place (undergo place.2 b event).1 ++
        (undergo place.2 b event).2.view place events := by
  rw [view, runOps_cons, List.zipWith_cons_cons, List.flatten_cons]
  rfl

/-- The fragments of the open transfer were shown last. -/
def ShownLast (place : Place) (b : Buffer) (seen : List PathUpdate) : Prop :=
  ∀ t, b.transfer = some t → ∃ earlier window,
    seen = earlier ++ window.map (Fragment.update place) ∧ window ≠ [] ∧
      InSequence t.count window ∧ window.length < t.count.toNat ∧ t = gathered t.count window

theorem shownLast_of_closed (h : b.transfer = none) : b.ShownLast place seen := by
  intro t ht
  rw [h] at ht
  cases ht

/-- A fragment goes on with those that were shown last, or begins anew. -/
theorem ShownLast.continues (h : b.ShownLast place seen) {a : Fragment} {t : OpenTransfer}
    (hc : b.continued? a = some t) : ∃ earlier window,
      seen = earlier ++ window.map (Fragment.update place) ∧
      InSequence a.count (window ++ [a]) ∧ (window ≠ [] → window.length < a.count.toNat) ∧
      t = gathered a.count window := by
  rw [continued?] at hc
  split at hc
  · next hzero =>
    obtain rfl := Option.some.inj hc
    have hnumber : a.number.toNat = ([] : List Fragment).length := by rw [hzero]; rfl
    refine ⟨seen, [], (List.append_nil seen).symm, ?_, fun hne => absurd rfl hne, rfl⟩
    exact inSequence_concat.mpr ⟨inSequence_nil _, hnumber, rfl⟩
  · rw [Option.filter_eq_some_iff, decide_eq_true_eq] at hc
    obtain ⟨ht, hnext, hcount⟩ := hc
    obtain ⟨earlier, window, hseen, _, hs, hlt, hgathered⟩ := h t ht
    have hbound : t.count.toNat < 65536 := t.count.toNat_lt
    have hnumber : a.number.toNat = window.length := by
      rw [hnext, hgathered, gathered, toNat_ofNat (by omega)]
    rw [← hcount] at hs hlt hgathered
    exact ⟨earlier, window, hseen, inSequence_concat.mpr ⟨hs, hnumber, rfl⟩, fun _ => hlt,
      hgathered⟩

/-- **What is shown of an event goes on from what was shown before.** -/
theorem shownLast_undergo (h : b.ShownLast place seen) (hw : EndsWhole place seen)
    (event : PlaceEvent) :
    (undergo place.2 b event).2.ShownLast place
        (seen ++ event.shown place (undergo place.2 b event).1) ∧
      EndsWhole place (seen ++ event.shown place (undergo place.2 b event).1) := by
  cases event with
  | forgotten =>
    rw [undergo, PlaceEvent.shown, List.append_nil]
    exact ⟨shownLast_of_closed rfl, hw⟩
  | fragment a =>
    rw [undergo]
    cases hc : b.continued? a with
    | none =>
      obtain ⟨error, herror⟩ := takeFragment_of_refused hc
      rw [herror, PlaceEvent.shown, List.append_nil]
      exact ⟨shownLast_of_closed rfl, hw⟩
    | some t =>
      obtain ⟨earlier, window, hseen, hs, hlt, rfl⟩ := h.continues hc
      have hnumber : a.number.toNat = window.length := (inSequence_concat.mp hs).2.1
      have hnext : seen ++ [a.update place] =
          earlier ++ (window ++ [a]).map (Fragment.update place) := by
        rw [hseen, List.map_append, List.append_assoc]
        rfl
      have hw' : EndsWhole place (seen ++ [a.update place]) :=
        hw.concat fun value he => by cases he
      rw [takeFragment_of_continued hc]
      dsimp only
      by_cases hle : a.count.toNat ≤ window.length + 1
      · -- the fragment completes the value, which is shown right after it
        obtain ⟨hvalue, hclosed⟩ := accept_completes hnumber hle
        rw [hvalue]
        refine ⟨shownLast_of_closed hclosed, ?_⟩
        have hlength : (window ++ [a]).length = max a.count.toNat 1 := by
          rw [List.length_append, List.length_singleton]
          by_cases hne : window = []
          · subst hne
            exact (Nat.max_eq_right hle).symm
          · have hcount := hlt hne
            omega
        have hwhole := hw'.concat (u := .complete place.1 place.2 (joined (window ++ [a])))
          fun value he => by
            cases he
            exact ⟨earlier, a.count, window ++ [a], hnext, hlength, hs.numbers, hs.counts, rfl⟩
        rwa [List.append_assoc] at hwhole
      · obtain ⟨hnone, hopen⟩ := accept_goesOn (b := b) hnumber hle
        rw [hnone]
        refine ⟨fun t' ht' => ?_, hw'⟩
        rw [hopen] at ht'
        obtain rfl := Option.some.inj ht'
        refine ⟨earlier, window ++ [a], hnext, by simp, hs, ?_, rfl⟩
        show (window ++ [a]).length < a.count.toNat
        rw [List.length_append, List.length_singleton]
        omega

theorem endsWhole_append_view (events : List PlaceEvent) :
    ∀ {b : Buffer} {seen : List PathUpdate}, b.ShownLast place seen → EndsWhole place seen →
      EndsWhole place (seen ++ b.view place events) := by
  induction events with
  | nil =>
    intro b seen _ hw
    rw [view, List.zipWith_nil_left, List.flatten_nil, List.append_nil]
    exact hw
  | cons event events ih =>
    intro b seen h hw
    obtain ⟨hlast, hwhole⟩ := shownLast_undergo h hw event
    rw [view_cons, ← List.append_assoc]
    exact ih hlast hwhole

/-- **Every value that is shown follows right after its fragments.** -/
theorem endsWhole_view (h : b.transfer = none) (events : List PlaceEvent) :
    EndsWhole place (b.view place events) := by
  have hlast : b.ShownLast place [] := shownLast_of_closed h
  have hview := endsWhole_append_view events hlast (endsWhole_nil place)
  rwa [List.nil_append] at hview

/-- A transfer that is begun anew is shown as far as it came, and so is one whose place is
forgotten; a fragment out of sequence is not. -/
example : (fresh .root).view (.external, .root)
    [.fragment ⟨0, 0, 2, [1]⟩, .fragment ⟨1, 0, 2, [2]⟩, .fragment ⟨2, 1, 2, [3]⟩,
      .fragment ⟨3, 0, 2, [4]⟩, .forgotten, .fragment ⟨4, 1, 2, [5]⟩] =
    [.fragment .external .root 0 2 [1], .fragment .external .root 0 2 [2],
      .fragment .external .root 1 2 [3], .complete .external .root [2, 3],
      .fragment .external .root 0 2 [4]] := by
  rfl

end Buffer

end ZoneBus
