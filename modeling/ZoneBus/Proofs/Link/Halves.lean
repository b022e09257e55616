import ZoneBus.Proofs.Link.Closing

/-!
# What the published state tells about the halves

An open link has both halves, a closed one has neither once nobody is at work on it,
and a faulted one lacks the half that failed.  This is what the published state tells,
as long as the far end is never reached while a close is still taking the halves.  An
open that gets in between publishes the open state over halves that the close then
takes away; the link comes to rest open, without its reading half, and the next open
finds nothing to do.

## Main definitions

* `Link.Matched` — the state tells which halves there are.
* `Link.crosses` — the far end is reached while a close takes the halves.
* `Link.Sound` — what holds as long as that does not happen.

## Main results

* `Link.matched_iff_uncrossed` — the halves match the state until the far end is
  reached while a close takes them, and need not afterwards.
* `Link.exists_open_without_reader` — a link at rest, open and without a reading half.
-/

namespace ZoneBus

/-- Whether a call is an open. -/
def LinkPhase.isOpening : LinkPhase → Bool
  | .begun .open | .openReader | .openWriter | .connecting => true
  | _ => false

namespace Link

/-- The published state tells which halves there are. -/
def Matched (l : Link) : Prop :=
  match l.state with
  | .open => l.hasReader = true ∧ l.hasWriter = true
  | .closed => l.hasReader = false ∧ l.hasWriter = false
  | .faulted => l.hasReader = false ∨ l.hasWriter = false

/-- Whether the far end is reached while a close takes the halves. -/
def crosses (l : Link) (o : Occurrence) : Bool := o.reaches && l.isClosing

/-! ### Links on which no open crosses a close -/

/-- What holds of a link as long as the far end is never reached while a close takes
the halves. -/
structure Sound (l : Link) : Prop where
  /-- An open link has both halves. -/
  opened : l.state = .open → l.hasReader = true ∧ l.hasWriter = true
  /-- While a close is under way, the link is closed. -/
  closing : ∀ c phase, l.calls.find? c = some phase → phase.isClosing = true → l.state = .closed
  /-- A faulted link lacks a half. -/
  faulted : l.state = .faulted → l.hasReader = false ∨ l.hasWriter = false
  /-- What is left of a closed link's reading half is for a close to take. -/
  reader : l.state = .closed → l.hasReader = true →
    ∃ c phase, l.calls.find? c = some phase ∧ phase.isClosing = true
  /-- What is left of a closed link's writing half is for a close to take. -/
  writer : l.state = .closed → l.hasWriter = true → ∃ c, l.calls.find? c = some .closeWriter

theorem sound_fresh (endpoint : String) (capacity : Option Nat)
    (connects : List (Option LinkError)) : (fresh endpoint capacity connects).Sound where
  opened := fun h => by cases h
  closing := fun _ _ h => by cases h
  faulted := fun h => by cases h
  reader := fun _ h => by cases h
  writer := fun _ h => by cases h

namespace Sound

variable {l l' : Link} {c : CallId} {phase : LinkPhase} {events : List LinkEvent}

/-- A link that nobody is at work on has the halves that its state tells. -/
theorem matched (h : l.Sound) (hquiet : l.calls.keys = []) : l.Matched := by
  have nobody : ∀ {c phase}, l.calls.find? c ≠ some phase := fun hf => by
    have := Directory.mem_keys_of_find? hf
    rw [hquiet] at this
    cases this
  unfold Matched
  split
  · next hs => exact h.opened hs
  · next hs =>
    refine ⟨Bool.eq_false_iff.mpr fun hr => ?_, Bool.eq_false_iff.mpr fun hw => ?_⟩
    · obtain ⟨c, phase, hf, _⟩ := h.reader hs hr
      exact nobody hf
    · obtain ⟨c, hf⟩ := h.writer hs hw
      exact nobody hf
  · next hs => exact h.faulted hs

/-- Only closes, the state and the halves matter. -/
theorem of_eq (h : l.Sound) (hs : l'.state = l.state) (hr : l'.hasReader = l.hasReader)
    (hw : l'.hasWriter = l.hasWriter)
    (hcloses : ∀ d phase, phase.isClosing = true →
      (l'.calls.find? d = some phase ↔ l.calls.find? d = some phase)) : l'.Sound where
  opened := by rw [hs, hr, hw]; exact h.opened
  closing := fun d phase hf hc => by
    rw [hs]
    exact h.closing d phase ((hcloses d phase hc).mp hf) hc
  faulted := by rw [hs, hr, hw]; exact h.faulted
  reader := by
    rw [hs, hr]
    intro hs hr
    obtain ⟨d, phase, hf, hc⟩ := h.reader hs hr
    exact ⟨d, phase, (hcloses d phase hc).mpr hf, hc⟩
  writer := by
    rw [hs, hw]
    intro hs hw
    obtain ⟨d, hf⟩ := h.writer hs hw
    exact ⟨d, (hcloses d _ rfl).mpr hf⟩

/-- A half fails. -/
theorem fault (h : l.Sound) (hs : l'.state = if l.state = .open then .faulted else l.state)
    (hr : l'.hasReader = true → l.hasReader = true)
    (hw : l'.hasWriter = true → l.hasWriter = true)
    (hlacks : l'.hasReader = false ∨ l'.hasWriter = false)
    (hcloses : ∀ d phase, phase.isClosing = true →
      (l'.calls.find? d = some phase ↔ l.calls.find? d = some phase)) : l'.Sound := by
  have closed_iff : l'.state = .closed ↔ l.state = .closed := by
    rw [hs]
    split
    · next ho => rw [ho]; decide
    · exact Iff.rfl
  exact {
    opened := fun ho => by
      rw [hs] at ho
      split at ho
      · cases ho
      · next hno => exact absurd ho hno
    closing := fun d phase hf hc =>
      closed_iff.mpr (h.closing d phase ((hcloses d phase hc).mp hf) hc)
    faulted := fun _ => hlacks
    reader := fun hs hl => by
      obtain ⟨d, phase, hf, hc⟩ := h.reader (closed_iff.mp hs) (hr hl)
      exact ⟨d, phase, (hcloses d phase hc).mpr hf, hc⟩
    writer := fun hs hl => by
      obtain ⟨d, hf⟩ := h.writer (closed_iff.mp hs) (hw hl)
      exact ⟨d, (hcloses d _ rfl).mpr hf⟩ }

/-- A call that is no close ends. -/
theorem closes_erase (hf : l.calls.find? c = some phase) (hc : phase.isClosing = false)
    (d : CallId) (phase' : LinkPhase) (hc' : phase'.isClosing = true) :
    (l.calls.erase c).find? d = some phase' ↔ l.calls.find? d = some phase' := by
  rw [Directory.find?_erase]
  split
  · next he =>
    subst he
    rw [hf, Option.some.injEq]
    refine ⟨fun h => (by cases h), ?_⟩
    rintro rfl
    rw [hc] at hc'; cases hc'
  · exact Iff.rfl

/-- A call that is no close goes on. -/
theorem closes_put (hnone : ∀ phase, l.calls.find? c = some phase → phase.isClosing = false)
    (hc : phase.isClosing = false) (d : CallId) (phase' : LinkPhase)
    (hc' : phase'.isClosing = true) :
    (l.calls.put c phase).find? d = some phase' ↔ l.calls.find? d = some phase' := by
  rw [Directory.find?_put]
  split
  · next he =>
    subst he
    rw [Option.some.injEq]
    refine ⟨?_, fun hf => ?_⟩
    · rintro rfl
      rw [hc] at hc'; cases hc'
    · have := hnone phase' hf
      rw [hc'] at this; cases this
  · exact Iff.rfl

/-- A close takes what it finds, and goes on or ends. -/
theorem close (h : l.Sound) (hf : l.calls.find? c = some phase) (hc : phase.isClosing = true)
    (hs : l'.state = l.state)
    (hw : l'.hasWriter = true → l.hasWriter = true ∧ phase ≠ .closeWriter)
    (hother : ∀ d, d ≠ c → l'.calls.find? d = l.calls.find? d)
    (hself : l'.hasReader = true → ∃ phase', l'.calls.find? c = some phase' ∧
      phase'.isClosing = true) : l'.Sound := by
  have hclosed : l.state = .closed := h.closing c phase hf hc
  rw [hclosed] at hs
  exact {
    opened := fun ho => by rw [hs] at ho; cases ho
    closing := fun _ _ _ _ => hs
    faulted := fun ho => by rw [hs] at ho; cases ho
    reader := fun _ hl => by
      obtain ⟨phase', hf', hc'⟩ := hself hl
      exact ⟨c, phase', hf', hc'⟩
    writer := fun _ hl => by
      obtain ⟨hl, hne⟩ := hw hl
      obtain ⟨d, hd⟩ := h.writer hclosed hl
      refine ⟨d, ?_⟩
      rw [hother d, hd]
      rintro rfl
      rw [hf, Option.some.injEq] at hd
      exact hne hd }

/-- The far end is reached while no close takes the halves. -/
theorem reach (hno : l.isClosing = false) (connects : List (Option LinkError)) (c : CallId) :
    ((l.reached connects).abort c).Sound where
  opened := fun _ => ⟨rfl, rfl⟩
  closing := fun d phase hf hc => by
    change (l.calls.erase c).find? d = some phase at hf
    rw [Directory.find?_erase] at hf
    split at hf
    · cases hf
    · rw [isClosing_of_find? hf hc] at hno
      cases hno
  faulted := fun h => by cases h
  reader := fun h => by cases h
  writer := fun h => by cases h

/-- A call that is no close ends, and leaves the halves alone. -/
theorem ends (h : l.Sound) (hf : l.calls.find? c = some phase) (hc : phase.isClosing = false)
    {v : Link} (hs : v.state = l.state) (hr : v.hasReader = l.hasReader)
    (hw : v.hasWriter = l.hasWriter) (hcalls : v.calls = l.calls) : (v.abort c).Sound := by
  refine h.of_eq hs hr hw fun d phase' hc' => ?_
  show ((Directory.erase _ c).find? d = _) ↔ _
  rw [hcalls]
  exact closes_erase hf hc d phase' hc'

/-- A call that is no close goes on, and leaves the halves alone. -/
theorem goesOn (h : l.Sound) (hf : l.calls.find? c = some phase) (hc : phase.isClosing = false)
    (phase' : LinkPhase) (hc' : phase'.isClosing = false) (hs : l'.state = l.state)
    (hr : l'.hasReader = l.hasReader) (hw : l'.hasWriter = l.hasWriter)
    (hcalls : l'.calls = l.calls.put c phase') : l'.Sound := by
  refine h.of_eq hs hr hw fun d phase'' hc'' => ?_
  rw [hcalls]
  refine closes_put (fun phase hf' => ?_) hc' d phase'' hc''
  rw [hf, Option.some.injEq] at hf'
  exact hf' ▸ hc

/-- A close begins: it is to take whatever halves there are. -/
theorem asksClose (l : Link) (c : CallId) :
    (({ l with state := .closed } : Link).queueWriter c .closeWriter).Sound where
  opened := fun ho => by cases ho
  closing := fun _ _ _ _ => rfl
  faulted := fun ho => by cases ho
  reader := fun _ _ => ⟨c, .closeWriter, by
    show (l.calls.put c .closeWriter).find? c = _
    rw [Directory.find?_put, if_pos rfl], rfl⟩
  writer := fun _ _ => ⟨c, by
    show (l.calls.put c .closeWriter).find? c = _
    rw [Directory.find?_put, if_pos rfl]⟩

/-- Every deed keeps a link sound, unless it reaches the far end while a close takes
the halves. -/
theorem deed (h : l.Sound) (hf : l.calls.find? c = some phase)
    (hd : Deed l c phase l' events) (hno : l.crosses (.move c events) = false) : l'.Sound := by
  have other : ∀ phase' d, d ≠ c → (l.calls.put c phase').find? d = l.calls.find? d :=
    fun phase' d hne => by rw [Directory.find?_put, if_neg (Ne.symm hne)]
  have self : ∀ phase', phase'.isClosing = true →
      ∃ phase'', (l.calls.put c phase').find? c = some phase'' ∧ phase''.isClosing = true :=
    fun phase' hc => ⟨phase', by rw [Directory.find?_put, if_pos rfl], hc⟩
  cases hd with
  | findsOpen => exact h.ends hf rfl rfl rfl rfl rfl
  | asksOpen => exact h.goesOn hf rfl .openReader rfl rfl rfl rfl rfl
  | asksClose => exact asksClose l c
  | asksSend bytes => exact h.goesOn hf rfl (.sendTurn bytes) rfl rfl rfl rfl rfl
  | asksReceive most => exact h.goesOn hf rfl (.receiveTurn most) rfl rfl rfl rfl rfl
  | opensReader => exact h.goesOn hf rfl .openWriter rfl rfl rfl rfl rfl
  | opensLate => exact h.ends hf rfl rfl rfl rfl rfl
  | opensWriter => exact h.goesOn hf rfl .connecting rfl rfl rfl rfl rfl
  | fails => exact h.ends hf rfl rfl rfl rfl rfl
  | connects connects =>
    refine reach ?_ connects c
    rw [crosses, Bool.and_eq_false_iff] at hno
    refine hno.resolve_left fun hc => ?_
    simp [Occurrence.reaches] at hc
  | takesWriter =>
    refine h.close hf rfl rfl (fun hw => by cases hw) (other _) fun _ => self _ rfl
  | missesWriter _ hw =>
    refine h.close hf rfl rfl (fun hw' => ?_) (other _) fun _ => self _ rfl
    change l.hasWriter = true at hw'
    rw [hw] at hw'; cases hw'
  | shutsDown =>
    refine h.close hf rfl rfl (fun hw => ⟨hw, ?_⟩) (other _) fun _ => self _ rfl
    rintro ⟨⟩
  | takesReader =>
    refine h.close hf rfl rfl (fun hw => ⟨hw, ?_⟩) (fun d hne => ?_) fun hr => by cases hr
    · rintro ⟨⟩
    · show (l.calls.erase c).find? d = _
      rw [Directory.find?_erase, if_neg (Ne.symm hne)]
  | getsWriter bytes => exact h.goesOn hf rfl (.writing bytes) rfl rfl rfl rfl rfl
  | lacksWriter => exact h.ends hf rfl rfl rfl rfl rfl
  | getsReader most => exact h.goesOn hf rfl (.reading most) rfl rfl rfl rfl rfl
  | lacksReader => exact h.ends hf rfl rfl rfl rfl rfl
  | givesUp _ hp =>
    refine h.ends hf ?_ rfl rfl rfl rfl
    rcases hp with ⟨rest, rfl⟩ | ⟨most, rfl⟩
    · rfl
    · rfl
  | writes => exact h.ends hf rfl rfl rfl rfl rfl
  | writesPartly line => exact h.goesOn hf rfl (.writing _) rfl rfl rfl rfl rfl
  | writeFails =>
    exact h.fault rfl id (fun hw => by cases hw) (Or.inr rfl) (closes_erase hf rfl)
  | reads => exact h.ends hf rfl rfl rfl rfl rfl
  | readFails =>
    exact h.fault rfl (fun hr => by cases hr) id (Or.inl rfl) (closes_erase hf rfl)

/-- What is done from outside keeps a link sound, unless it drops a close. -/
theorem input (h : l.Sound) (hl : l.Locked) {i : Input} (hkept : l.cutsClose (.input i) = false) :
    (l.apply i).Sound := by
  cases i with
  | begin call =>
    refine h.of_eq rfl rfl rfl (closes_put (fun phase hf => ?_) rfl)
    exact absurd (hl.numbered _ _ hf) (Nat.lt_irrefl _)
  | drop c =>
    refine h.of_eq rfl rfl rfl fun d phase hc => ?_
    show (l.calls.erase c).find? d = some phase ↔ _
    rw [Directory.find?_erase]
    split
    · next he =>
      subst he
      refine ⟨fun h' => (by cases h'), fun hf => ?_⟩
      rw [cutsClose, hf, Option.any_some, hc] at hkept
      cases hkept
    · exact Iff.rfl
  | farEnd line connects => exact h.of_eq rfl rfl rfl fun _ _ _ => Iff.rfl

end Sound

/-- A link stays sound as long as the far end is never reached while a close takes the
halves, and no close is dropped. -/
theorem sound_of_history {endpoint : String} {capacity : Option Nat}
    {connects : List (Option LinkError)} {l : Link} {past : List (Link × Occurrence)}
    (h : History (fresh endpoint capacity connects) past l) (hu : Unbroken past)
    (hno : ∀ m ∈ past, m.1.crosses m.2 = false) : l.Sound := by
  generalize hl₀ : fresh endpoint capacity connects = l₀ at h
  induction h with
  | nil => exact hl₀ ▸ sound_fresh endpoint capacity connects
  | @cons v w past o h ho ih =>
    have hv : v.Sound := ih (fun m hm => hu m (List.mem_cons_of_mem _ hm)) fun m hm =>
      hno m (List.mem_cons_of_mem _ hm)
    have hkept := hu _ List.mem_cons_self
    have huncrossed := hno _ List.mem_cons_self
    rcases happens_cases ho with ⟨c, events, phase, rfl, hf, hd⟩ | ⟨i, rfl, rfl⟩
    · exact hv.deed hf hd huncrossed
    · exact hv.input (locked_of_history (hl₀ ▸ h)) hkept

/-! ### Opens -/

/-- An open that ends well leaves the link open. -/
theorem open_of_done {l l' : Link} {c : CallId} {phase : LinkPhase} {events : List LinkEvent}
    (hd : Deed l c phase l' events) (hp : phase.isOpening = true)
    (hdone : LinkEvent.finished c .done ∈ events) : l'.state = .open := by
  cases hd with
  | findsOpen hs => exact hs
  | opensLate _ hs => exact hs
  | connects => rfl
  | fails => simp at hdone
  | asksOpen => cases hdone
  | opensReader => cases hdone
  | opensWriter => cases hdone
  | givesUp _ hq => rcases hq with ⟨_, rfl⟩ | ⟨_, rfl⟩ <;> cases hp
  | _ => cases hp

/-! ### An open that crosses a close -/

/-- **Once the far end is reached while a close takes the halves, the link can come to
rest open without a reading half**: the close goes on where it was. -/
theorem exists_rest_of_crosses {l l' : Link} {c : CallId} {events : List LinkEvent}
    (hl : l.Locked) (ho : Happens l (.move c events) l')
    (hc : l.crosses (.move c events) = true) :
    ∃ later l'', History l' later l'' ∧ Unbroken later ∧ l''.calls.keys = [] ∧
      l''.state = .open ∧ l''.hasReader = false := by
  obtain ⟨hconnected, hclosing⟩ := Bool.and_eq_true_iff.mp hc
  have hconnected : LinkEvent.connected ∈ events := of_decide_eq_true hconnected
  rcases happens_cases ho with ⟨_, _, phase, ⟨⟩, hf, hd⟩ | ⟨i, hi, _⟩
  · obtain ⟨d, phase', hd', hp'⟩ := hl.exists_of_isClosing hclosing
    obtain ⟨rfl, connects, rfl⟩ := hd.eq_reached hconnected
    have hl' := locked_happens ho hl
    have hd' : ((l.reached connects).abort c).calls.find? d = some phase' := by
      show (l.calls.erase c).find? d = _
      rw [Directory.find?_erase, if_neg, hd']
      rintro rfl
      rw [hf, Option.some.injEq] at hd'
      rw [← hd'] at hp'
      cases hp'
    -- everything but the closes is dropped, and they go on to their ends
    obtain ⟨past, v, hdrops, hu, _, hcalls, hstate, _, _⟩ :=
      exists_kept ((l.reached connects).abort c)
        (fun i => (((l.reached connects).abort c).calls.find? i).any LinkPhase.isClosing)
        fun i phase hi hp => by rw [hi]; exact hp
    have hall : ∀ i phase, v.calls.find? i = some phase → phase.isClosing = true := by
      intro i phase hi
      rw [hcalls] at hi
      split at hi
      · next hk =>
        rw [hi] at hk
        exact hk
      · cases hi
    have hsome : v.calls.find? d = some phase' := by
      rw [hcalls, hd', if_pos (by exact hp')]
    obtain ⟨later, w, hends, hu', hquiet, hstate', hreader⟩ := exists_closes_end
      (hdrops.invariant locked_happens hl') hall fun _ => ⟨d, phase', hsome⟩
    exact ⟨later ++ past, w, hdrops.trans hends, hu.append hu', hquiet,
      hstate'.trans hstate, hreader⟩
  · cases hi

/-! ### The state and the halves -/

/-- **The published state tells which halves there are until an open crosses a close,
and need not afterwards.**  As long as the far end is never reached while a close takes
the halves, an open link has both halves, a link at rest has the halves that its state
tells, and an open that ends well leaves both halves in place.  Once the far end is
reached while a close takes the halves, the link can come to rest open without a
reading half. -/
theorem matched_iff_uncrossed {endpoint : String} {capacity : Option Nat}
    {connects : List (Option LinkError)} {l : Link} {past : List (Link × Occurrence)}
    (h : History (fresh endpoint capacity connects) past l) (hu : Unbroken past) :
    ((∀ m ∈ past, m.1.crosses m.2 = false) →
      (l.state = .open → l.hasReader = true ∧ l.hasWriter = true) ∧
      (l.calls.keys = [] → l.Matched) ∧
      ∀ c phase events l', l.calls.find? c = some phase → phase.isOpening = true →
        Happens l (.move c events) l' → l.crosses (.move c events) = false →
        .finished c .done ∈ events →
          l'.state = .open ∧ l'.hasReader = true ∧ l'.hasWriter = true) ∧
    ∀ c events l', Happens l (.move c events) l' → l.crosses (.move c events) = true →
      ∃ later l'', History l' later l'' ∧ Unbroken later ∧ l''.calls.keys = [] ∧
        l''.state = .open ∧ l''.hasReader = false := by
  have hl : l.Locked := locked_of_history h
  refine ⟨fun hno => ?_, fun c events l' ho hc => exists_rest_of_crosses hl ho hc⟩
  have hs : l.Sound := sound_of_history h hu hno
  refine ⟨hs.opened, hs.matched, fun c phase events l' hf hp ho hc hdone => ?_⟩
  rcases happens_cases ho with ⟨_, _, phase', ⟨⟩, hf', hd⟩ | ⟨i, hi, _⟩
  · rw [hf, Option.some.injEq] at hf'
    subst hf'
    have hopen := open_of_done hd hp hdone
    exact ⟨hopen, (hs.deed hf hd hc).opened hopen⟩
  · cases hi

/-- An open, then a close and another open that gets in between the publishing of the
closed state and the taking of the reading half, and at last one more open. -/
def crossedClose : List Cue :=
  [.input (.begin .open), .move 0 0, .move 0 0, .move 0 0, .move 0 0,
    .input (.begin .close), .move 1 0,
    .input (.begin .open), .move 2 0, .move 2 0,
    .move 1 0, .move 1 0,
    .move 2 0, .move 2 0,
    .move 1 0,
    .input (.begin .open), .move 3 0]

/-- Right before the far end is reached there, nothing has crossed yet, and the link can
come to rest without a reading half. -/
theorem matched_iff_uncrossed_crossedClose :
    ∃ past l, History (fresh "line" none []) past l ∧
      (l.state = .open → l.hasReader = true ∧ l.hasWriter = true) ∧
      ∃ events l', Happens l (.move 2 events) l' ∧
        ∃ later l'', History l' later l'' ∧ Unbroken later ∧ l''.calls.keys = [] ∧
          l''.state = .open ∧ l''.hasReader = false := by
  obtain ⟨past, l, h, hkept, huncrossed, hcrosses⟩ :=
    exists_history (fresh "line" none []) (crossedClose.take 13)
      (fun past l => past.all (fun m => !m.1.cutsClose m.2) = true ∧
        past.all (fun m => !m.1.crosses m.2) = true ∧
        (l.moves 2).any (fun m => l.crosses (.move 2 m.2)) = true)
      (by decide +kernel)
  have hu : Unbroken past := fun m hm => by
    simpa using List.all_eq_true.mp hkept m hm
  have hno : ∀ m ∈ past, m.1.crosses m.2 = false := fun m hm => by
    simpa using List.all_eq_true.mp huncrossed m hm
  obtain ⟨⟨l', events⟩, hm, hc⟩ := List.any_eq_true.mp hcrosses
  obtain ⟨hsound, hcross⟩ := matched_iff_uncrossed h hu
  exact ⟨past, l, h, (hsound hno).1, events, l', .move hm, hcross 2 events l' (.move hm) hc⟩

/-- **A link can come to rest open without a reading half**, with an open that ended well
although there is none. -/
theorem exists_open_without_reader :
    ∃ past l, History (fresh "line" none []) past l ∧
      (past.all (fun m => !m.1.cutsClose m.2) = true ∧
        (past.head?.any fun m => m.2.ends 3 .done && !m.1.hasReader) = true ∧
        l.calls.keys = [] ∧ l.state = .open ∧ l.hasReader = false) :=
  exists_history (fresh "line" none []) crossedClose _ (by decide +kernel)

end Link

end ZoneBus
