import Mathlib.Algebra.Order.BigOperators.Group.Finset
import ZoneBus.Link.Settle
import ZoneBus.Proofs.Directory.Values
import ZoneBus.Proofs.Link.Locks

/-!
# Closes under way

A close publishes the closed state at once and takes the two halves afterwards, one
after the other, each when it is its turn for the lock.  As long as it is under way,
the halves that it has not taken stay in place.  Any other call may be dropped by its
caller; a close that has begun its work is seen through to its end.

## Main definitions

* `LinkPhase.isClosing`, `Link.isClosing` — a close is under way.
* `Link.Unbroken` — no close under way was dropped.
* `Link.dropAll` — some calls are dropped.

## Main results

* `Link.exists_kept` — calls other than closes can be dropped.
* `Link.exists_closes_end` — closes that are alone come to their ends, and leave no
  reading half.
-/

namespace ZoneBus

/-- Whether a call is a close that has published the closed state. -/
def LinkPhase.isClosing : LinkPhase → Bool
  | .closeWriter | .shuttingDown | .closeReader => true
  | _ => false

namespace Link

/-- Whether a close that has published the closed state is under way. -/
def isClosing (l : Link) : Bool := l.calls.values.any LinkPhase.isClosing

/-- Whether a close is dropped that has published the closed state. -/
def cutsClose (l : Link) : Occurrence → Bool
  | .input (.drop c) => (l.calls.find? c).any LinkPhase.isClosing
  | _ => false

/-- No close was dropped once it had published the closed state. -/
def Unbroken (past : List (Link × Occurrence)) : Prop := ∀ m ∈ past, m.1.cutsClose m.2 = false

theorem Unbroken.append {past later : List (Link × Occurrence)} (h : Unbroken past)
    (h' : Unbroken later) : Unbroken (later ++ past) := fun m hm => by
  rcases List.mem_append.mp hm with hm | hm
  · exact h' m hm
  · exact h m hm

variable {l l' : Link} {c : CallId} {phase : LinkPhase} {events : List LinkEvent}

theorem isClosing_of_find? (hf : l.calls.find? c = some phase) (hc : phase.isClosing = true) :
    l.isClosing = true :=
  Directory.any_values_of_find? hf hc

theorem Locked.exists_of_isClosing (h : l.Locked) (hc : l.isClosing = true) :
    ∃ c phase, l.calls.find? c = some phase ∧ phase.isClosing = true :=
  Directory.exists_find?_of_any h.nodup hc

/-! ### Dropping calls -/

/-- The link after some calls were dropped, one after the other. -/
def dropAll (l : Link) (cs : List CallId) : Link := cs.foldl abort l

@[simp] theorem dropAll_state (l : Link) (cs : List CallId) : (l.dropAll cs).state = l.state := by
  induction cs generalizing l with
  | nil => rfl
  | cons c cs ih => exact ih (l.abort c)

@[simp] theorem dropAll_hasReader (l : Link) (cs : List CallId) :
    (l.dropAll cs).hasReader = l.hasReader := by
  induction cs generalizing l with
  | nil => rfl
  | cons c cs ih => exact ih (l.abort c)

@[simp] theorem dropAll_hasWriter (l : Link) (cs : List CallId) :
    (l.dropAll cs).hasWriter = l.hasWriter := by
  induction cs generalizing l with
  | nil => rfl
  | cons c cs ih => exact ih (l.abort c)

/-- The calls that are left. -/
theorem find?_dropAll (l : Link) (cs : List CallId) (c : CallId) :
    (l.dropAll cs).calls.find? c = if c ∈ cs then none else l.calls.find? c := by
  induction cs generalizing l with
  | nil => rfl
  | cons d cs ih =>
    show ((l.abort d).dropAll cs).calls.find? c = _
    rw [ih (l.abort d)]
    show (if c ∈ cs then none else (l.calls.erase d).find? c) = _
    rw [Directory.find?_erase]
    by_cases hd : d = c
    · subst hd
      simp
    · by_cases hc : c ∈ cs
      · rw [if_pos hc, if_pos (List.mem_cons_of_mem _ hc)]
      · have hnot : c ∉ d :: cs := fun h => (List.mem_cons.mp h).elim (fun e => hd e.symm) hc
        rw [if_neg hc, if_neg hd, if_neg hnot]

/-- Calls other than closes can be dropped. -/
theorem exists_dropAll (l : Link) (cs : List CallId)
    (hcs : ∀ c ∈ cs, ∀ phase, l.calls.find? c = some phase → phase.isClosing = false) :
    ∃ past, History l past (l.dropAll cs) ∧ Unbroken past ∧
      ∀ m ∈ past, ∃ c, m.2 = .input (.drop c) := by
  induction cs generalizing l with
  | nil => exact ⟨[], .nil l, fun _ h => (by cases h), fun _ h => (by cases h)⟩
  | cons d cs ih =>
    have hleft : ∀ c ∈ cs, ∀ phase, (l.abort d).calls.find? c = some phase →
        phase.isClosing = false := fun c hc phase hf => by
      change (l.calls.erase d).find? c = some phase at hf
      rw [Directory.find?_erase] at hf
      split at hf
      · cases hf
      · exact hcs c (List.mem_cons_of_mem _ hc) phase hf
    have hkept : l.cutsClose (.input (.drop d)) = false := by
      show (l.calls.find? d).any LinkPhase.isClosing = false
      cases hf : l.calls.find? d with
      | none => rfl
      | some phase => exact hcs d List.mem_cons_self phase hf
    obtain ⟨past, h, hu, hdrops⟩ := ih (l.abort d) hleft
    have h₁ : History l [(l, .input (.drop d))] (l.abort d) := .single (.input (Input.drop d))
    refine ⟨past ++ [(l, .input (.drop d))], h₁.trans h, ?_, fun m hm => ?_⟩
    · refine Unbroken.append (fun m hm => ?_) hu
      rw [List.mem_singleton.mp hm]
      exact hkept
    · rcases List.mem_append.mp hm with hm | hm
      · exact hdrops m hm
      · exact ⟨d, by rw [List.mem_singleton.mp hm]⟩

/-- All calls but some can be dropped, when the closes are among those. -/
theorem exists_kept (l : Link) (keep : CallId → Bool)
    (hkeep : ∀ c phase, l.calls.find? c = some phase → phase.isClosing = true → keep c = true) :
    ∃ past l', History l past l' ∧ Unbroken past ∧ (∀ m ∈ past, ∃ c, m.2 = .input (.drop c)) ∧
      (∀ c, l'.calls.find? c = if keep c then l.calls.find? c else none) ∧
      l'.state = l.state ∧ l'.hasReader = l.hasReader ∧ l'.hasWriter = l.hasWriter := by
  have hdrop : ∀ c ∈ l.calls.keys.filter fun c => !keep c, ∀ phase,
      l.calls.find? c = some phase → phase.isClosing = false := fun c hc phase hf => by
    rw [Bool.eq_false_iff]
    intro hp
    have := (List.mem_filter.mp hc).2
    rw [hkeep c phase hf hp] at this
    cases this
  obtain ⟨past, h, hu, hdrops⟩ := exists_dropAll l _ hdrop
  refine ⟨past, _, h, hu, hdrops, fun c => ?_, by simp, by simp, by simp⟩
  rw [find?_dropAll]
  cases hk : keep c with
  | true => rw [if_neg (by simp [hk]), if_pos rfl]
  | false =>
    rw [if_neg (by decide : ¬ false = true)]
    split
    · rfl
    · next hnot =>
      rw [Directory.find?_eq_none_iff]
      exact fun hm => hnot (List.mem_filter.mpr ⟨hm, by rw [hk]; rfl⟩)

/-! ### Closes that are alone -/

/-- A move of a close takes it on, or takes the reading half and ends it. -/
theorem closing_deed (hd : Deed l c phase l' events) (hc : phase.isClosing = true) :
    l'.state = l.state ∧ l'.nextCall = l.nextCall ∧
      ((∃ phase', l'.calls = l.calls.put c phase' ∧ phase'.isClosing = true ∧
          phase'.work < phase.work ∧ l'.hasReader = l.hasReader) ∨
        l'.calls = l.calls.erase c ∧ l'.hasReader = false) := by
  cases hd with
  | takesWriter => exact ⟨rfl, rfl, Or.inl ⟨_, rfl, rfl, by decide, rfl⟩⟩
  | missesWriter => exact ⟨rfl, rfl, Or.inl ⟨_, rfl, rfl, by decide, rfl⟩⟩
  | shutsDown => exact ⟨rfl, rfl, Or.inl ⟨_, rfl, rfl, by decide, rfl⟩⟩
  | takesReader => exact ⟨rfl, rfl, Or.inr ⟨rfl, rfl⟩⟩
  | givesUp _ hp =>
    rcases hp with ⟨_, rfl⟩ | ⟨_, rfl⟩
    · cases hc
    · cases hc
  | _ => cases hc

/-- Among closes that are alone, one can move. -/
theorem Locked.exists_closing_move (h : l.Locked)
    (hall : ∀ c phase, l.calls.find? c = some phase → phase.isClosing = true)
    (hf : l.calls.find? c = some phase) :
    ∃ d l' events, (l', events) ∈ l.moves d := by
  have moves_of : ∀ {d phase' m}, l.calls.find? d = some phase' → l.movesIn d phase' = [m] →
      ∃ d l' events, (l', events) ∈ l.moves d := by
    intro d phase' m hd hm
    refine ⟨d, m.1, m.2, ?_⟩
    rw [moves, hd]
    show m ∈ l.movesIn d phase'
    rw [hm]
    exact List.mem_singleton_self m
  have hc := hall c phase hf
  cases phase with
  | closeWriter =>
    obtain ⟨d, phase', hfirst, hd, hq⟩ := h.writer.exists_first hf rfl
    have hholds : l.holdsWriter d = true := beq_iff_eq.mpr hfirst
    have hc' := hall d phase' hd
    cases phase' with
    | closeWriter =>
      by_cases hw : l.hasWriter = true
      · exact moves_of hd (by rw [movesIn, if_pos hholds, if_pos hw])
      · exact moves_of hd (by rw [movesIn, if_pos hholds, if_neg hw])
    | shuttingDown => exact moves_of hd rfl
    | closeReader => cases hq
    | _ => cases hc'
  | shuttingDown => exact moves_of hf rfl
  | closeReader =>
    obtain ⟨d, phase', hfirst, hd, hq⟩ := h.reader.exists_first hf rfl
    have hholds : l.holdsReader d = true := beq_iff_eq.mpr hfirst
    have hc' := hall d phase' hd
    cases phase' with
    | closeReader => exact moves_of hd (by rw [movesIn, if_pos hholds])
    | closeWriter => cases hq
    | shuttingDown => cases hq
    | _ => cases hc'
  | _ => cases hc

/-- What is left to do for the calls under way. -/
private def left (l : Link) : Nat :=
  ∑ c ∈ Finset.range l.nextCall, (l.calls.find? c).elim 0 LinkPhase.work

private theorem left_lt (hn : l'.nextCall = l.nextCall) (hc : c < l.nextCall)
    (hother : ∀ d, d ≠ c → l'.calls.find? d = l.calls.find? d)
    (hlt : (l'.calls.find? c).elim 0 LinkPhase.work < (l.calls.find? c).elim 0 LinkPhase.work) :
    l'.left < l.left := by
  unfold left
  rw [hn]
  refine Finset.sum_lt_sum (fun d _ => ?_) ⟨c, Finset.mem_range.mpr hc, hlt⟩
  by_cases hd : d = c
  · exact hd ▸ hlt.le
  · rw [hother d hd]

/-- **Closes that are alone come to their ends**, leave no reading half, and leave the
published state as it is. -/
theorem exists_closes_end (h : l.Locked)
    (hall : ∀ c phase, l.calls.find? c = some phase → phase.isClosing = true)
    (hsome : l.hasReader = true → ∃ c phase, l.calls.find? c = some phase) :
    ∃ past l', History l past l' ∧ Unbroken past ∧ l'.calls.keys = [] ∧ l'.state = l.state ∧
      l'.hasReader = false := by
  -- each move leaves less to do, and the reading half goes at the latest with the last close
  induction hn : l.left using Nat.strong_induction_on generalizing l with
  | _ n ih =>
    subst hn
    by_cases hquiet : l.calls.keys = []
    · refine ⟨[], l, .nil l, fun _ hm => (by cases hm), hquiet, rfl, ?_⟩
      rw [Bool.eq_false_iff]
      intro hr
      obtain ⟨c, phase, hf⟩ := hsome hr
      have := Directory.mem_keys_of_find? hf
      rw [hquiet] at this
      cases this
    · obtain ⟨c, hc⟩ := List.exists_mem_of_ne_nil _ hquiet
      obtain ⟨phase, hf⟩ := Option.isSome_iff_exists.mp (Directory.mem_keys_iff.mp hc)
      obtain ⟨d, l', events, hm⟩ := h.exists_closing_move hall hf
      obtain ⟨phase', hd, hdeed⟩ := exists_deed hm
      have hstep : Happens l (.move d events) l' := .move hm
      obtain ⟨hstate, hnext, hcase⟩ := closing_deed hdeed (hall d phase' hd)
      have hlt := h.numbered d phase' hd
      have hpast : Unbroken [(l, .move d events)] := fun m hm => by
        rw [List.mem_singleton.mp hm]
        rfl
      have hgoes : (∀ c phase, l'.calls.find? c = some phase → phase.isClosing = true) →
          (l'.hasReader = true → ∃ c phase, l'.calls.find? c = some phase) → l'.left < l.left →
          ∃ past l', History l past l' ∧ Unbroken past ∧ l'.calls.keys = [] ∧
            l'.state = l.state ∧ l'.hasReader = false := by
        intro hall' hsome' hless
        obtain ⟨past, l'', hhist, hu, hend, hs, hr⟩ :=
          ih _ hless (locked_happens hstep h) hall' hsome' rfl
        exact ⟨past ++ [(l, .move d events)], l'', (History.single hstep).trans hhist,
          hpast.append hu, hend, hs.trans hstate, hr⟩
      rcases hcase with ⟨phase'', hcalls, hclosing, hwork, hreader⟩ | ⟨hcalls, hreader⟩
      · refine hgoes (fun c phase hf => ?_) (fun _ => ⟨d, phase'', ?_⟩) (left_lt hnext hlt ?_ ?_)
        · rw [hcalls, Directory.find?_put] at hf
          split at hf
          · exact Option.some.inj hf ▸ hclosing
          · exact hall c phase hf
        · rw [hcalls, Directory.find?_put, if_pos rfl]
        · intro c hne
          rw [hcalls, Directory.find?_put, if_neg (Ne.symm hne)]
        · rw [hcalls, Directory.find?_put, if_pos rfl, hd]
          exact hwork
      · refine hgoes (fun c phase hf => ?_) (fun hr => ?_) (left_lt hnext hlt ?_ ?_)
        · rw [hcalls, Directory.find?_erase] at hf
          split at hf
          · cases hf
          · exact hall c phase hf
        · rw [hreader] at hr
          cases hr
        · intro c hne
          rw [hcalls, Directory.find?_erase, if_neg (Ne.symm hne)]
        · rw [hcalls, Directory.find?_erase, if_pos rfl, hd]
          show 0 < phase'.work
          cases phase' with
          | begun call => cases call <;> simp [LinkPhase.work]
          | _ => simp [LinkPhase.work]

end Link

end ZoneBus
