import ZoneBus.Proofs.Link.History

/-!
# What a call of a link does

Every move of a call is one of a few deeds: it gets in turn for a lock, comes to hold
one, takes or puts a half, moves bytes, gives up, or ends.  The moves are taken apart
here, once; every invariant of a link is checked against the deeds, and against
nothing else.

## Main definitions

* `Link.Deed` — what a call in a phase can do next, each with what brings it about.
* `Link.GoesOn` — the phases that a call goes through.

## Main results

* `Link.deed_of_mem` — every move is a deed.
* `Link.Deed.calls_cases` — a deed takes its call on, or ends it.
* `Link.Deed.eq_reached` — only an open reaches the far end.
* `Link.happens_cases` — what happens is a deed of a call under way, or an input.
-/

namespace ZoneBus

namespace Link

/-- What becomes known when the line took bytes of a call. -/
def noted (l : Link) (c : CallId) (line : Line) : List LinkEvent :=
  let taken := line.outbound.drop l.line.outbound.length
  if taken.isEmpty then [] else [.wrote c taken]

/-- The link after the far end was reached. -/
def reached (l : Link) (connects : List (Option LinkError)) : Link :=
  { l with
    connects := connects
    line := l.line.connect
    hasReader := true
    hasWriter := true
    state := .open }

/-- The link after reading or writing failed; only an open link can fault. -/
def faulted (l : Link) : Link :=
  { l with state := if l.state = .open then .faulted else l.state }

theorem fault_fst (l : Link) : l.fault.1 = l.faulted := by
  unfold fault faulted
  split
  · next hs => rw [if_pos hs]
  · next hs => rw [if_neg hs]

/-- A fault is published, or was not for this call to publish. -/
theorem fault_snd (l : Link) : l.fault.2 = [] ∨ l.fault.2 = [.changed] := by
  unfold fault
  split
  · exact Or.inr rfl
  · exact Or.inl rfl

/-- What a call in a phase can do next. -/
inductive Deed (l : Link) (c : CallId) : LinkPhase → Link → List LinkEvent → Prop where
  /-- An open finds the link open. -/
  | findsOpen : l.state = .open → Deed l c (.begun .open) (l.abort c) [.finished c .done]
  /-- An open gets in turn for the reading lock. -/
  | asksOpen : l.state ≠ .open → Deed l c (.begun .open) (l.queueReader c .openReader) []
  /-- A close publishes the closed state and gets in turn for the writing lock. -/
  | asksClose :
      Deed l c (.begun .close) ({ l with state := .closed }.queueWriter c .closeWriter) [.changed]
  /-- A send gets in turn for the writing lock. -/
  | asksSend (bytes : Bytes) :
      Deed l c (.begun (.send bytes)) (l.queueWriter c (.sendTurn bytes)) []
  /-- A receive gets in turn for the reading lock. -/
  | asksReceive (most : Nat) :
      Deed l c (.begun (.receive most)) (l.queueReader c (.receiveTurn most)) []
  /-- An open holds the reading lock. -/
  | opensReader : l.holdsReader c = true → Deed l c .openReader (l.queueWriter c .openWriter) []
  /-- An open holds both locks, and finds the link open. -/
  | opensLate : l.holdsWriter c = true → l.state = .open →
      Deed l c .openWriter (l.abort c) [.finished c .done]
  /-- An open holds both locks. -/
  | opensWriter : l.holdsWriter c = true → l.state ≠ .open →
      Deed l c .openWriter (l.advance c .connecting) []
  /-- The far end cannot be reached. -/
  | fails (error : LinkError) (connects : List (Option LinkError)) :
      Deed l c .connecting ({ l with connects := connects }.abort c)
        [.finished c (.failed error)]
  /-- The far end is reached. -/
  | connects (connects : List (Option LinkError)) :
      Deed l c .connecting ((l.reached connects).abort c)
        [.connected, .changed, .finished c .done]
  /-- A close takes the writing half. -/
  | takesWriter : l.holdsWriter c = true → l.hasWriter = true →
      Deed l c .closeWriter ({ l with hasWriter := false }.advance c .shuttingDown) []
  /-- A close finds no writing half. -/
  | missesWriter : l.holdsWriter c = true → l.hasWriter = false →
      Deed l c .closeWriter ((l.unlock c).queueReader c .closeReader) []
  /-- A close shuts the writing half down. -/
  | shutsDown : Deed l c .shuttingDown (l.shutDown c).1 [.shutdown]
  /-- A close takes the reading half. -/
  | takesReader : l.holdsReader c = true →
      Deed l c .closeReader ({ l with hasReader := false }.abort c) [.finished c .done]
  /-- A send finds the writing half. -/
  | getsWriter (bytes : Bytes) : l.holdsWriter c = true → l.hasWriter = true →
      Deed l c (.sendTurn bytes) (l.advance c (.writing bytes)) []
  /-- A send finds no writing half. -/
  | lacksWriter (bytes : Bytes) : l.holdsWriter c = true → l.hasWriter = false →
      Deed l c (.sendTurn bytes) (l.abort c) [.finished c (.failed .notOpen)]
  /-- A receive finds the reading half. -/
  | getsReader (most : Nat) : l.holdsReader c = true → l.hasReader = true →
      Deed l c (.receiveTurn most) (l.advance c (.reading most)) []
  /-- A receive finds no reading half. -/
  | lacksReader (most : Nat) : l.holdsReader c = true → l.hasReader = false →
      Deed l c (.receiveTurn most) (l.abort c) [.finished c (.failed .notOpen)]
  /-- A send or a receive gives up, since the link is not open. -/
  | givesUp {phase : LinkPhase} : l.state ≠ .open →
      (∃ rest, phase = .writing rest) ∨ (∃ most, phase = .reading most) →
      Deed l c phase (l.abort c) [.finished c (.failed .notOpen)]
  /-- Everything is written. -/
  | writes {rest : Bytes} (line : Line) : l.line.write rest = some (.done, line) →
      Deed l c (.writing rest) ({ l with line := line }.abort c)
        (l.noted c line ++ [.finished c .done])
  /-- Some bytes are written. -/
  | writesPartly {rest left : Bytes} (line : Line) :
      l.line.write rest = some (.partly left, line) →
      Deed l c (.writing rest) ({ l with line := line }.advance c (.writing left)) (l.noted c line)
  /-- Writing fails. -/
  | writeFails {rest : Bytes} {reason : String} (line : Line) (published : List LinkEvent) :
      l.line.write rest = some (.failed reason, line) → published = [] ∨ published = [.changed] →
      Deed l c (.writing rest) ((faulted { l with line := line, hasWriter := false }).abort c)
        (l.noted c line ++ (published ++ [.finished c (.failed (.io reason))]))
  /-- Bytes are read. -/
  | reads {most : Nat} {bytes : Bytes} (line : Line) :
      l.line.read most = some (.data bytes, line) →
      Deed l c (.reading most) ({ l with line := line }.abort c) [.finished c (.received bytes)]
  /-- Reading ends or fails. -/
  | readFails {most : Nat} {result : Line.Read} (line : Line) (error : LinkError)
      (published : List LinkEvent) :
      l.line.read most = some (result, line) → (∀ bytes, result ≠ .data bytes) →
      published = [] ∨ published = [.changed] →
      Deed l c (.reading most) ((faulted { l with line := line, hasReader := false }).abort c)
        (published ++ [.finished c (.failed error)])

variable {l l' : Link} {c : CallId} {phase : LinkPhase} {events : List LinkEvent}

theorem ne_open_of_mem_giveUp {m : Link × List LinkEvent} (h : m ∈ l.giveUp c) :
    l.state ≠ .open ∧ m = l.finish c (.failed .notOpen) := by
  unfold giveUp at h
  split at h
  · simp at h
  · next hs => exact ⟨hs, List.mem_singleton.mp h⟩

/-- The deeds of a call that writes. -/
theorem deed_of_write {rest : Bytes} (h : (l', events) ∈ l.write c rest) :
    Deed l c (.writing rest) l' events := by
  rw [write] at h
  split at h
  · simp at h
  next written line hw =>
    rw [List.mem_singleton, Prod.mk.injEq] at h
    obtain ⟨rfl, rfl⟩ := h
    cases written with
    | done => exact .writes line hw
    | partly left =>
      have hd := Deed.writesPartly (c := c) line hw
      rw [← List.append_nil (l.noted c line)] at hd
      exact hd
    | failed reason =>
      have hd := Deed.writeFails (c := c) line _ hw (fault_snd { l with line, hasWriter := false })
      rw [← fault_fst] at hd
      exact hd

/-- The deeds of a call that reads. -/
theorem deed_of_read {most : Nat} (h : (l', events) ∈ l.read c most) :
    Deed l c (.reading most) l' events := by
  have fails : ∀ {result line} (error : LinkError), l.line.read most = some (result, line) →
      (∀ bytes, result ≠ .data bytes) →
      Deed l c (.reading most) (Link.fail { l with line := line, hasReader := false } c error).1
        (Link.fail { l with line := line, hasReader := false } c error).2 := by
    intro result line error hr hno
    have hd := Deed.readFails (c := c) line error _ hr hno
      (fault_snd { l with line, hasReader := false })
    rw [← fault_fst] at hd
    exact hd
  rw [read] at h
  split at h
  · simp at h
  next result line hr =>
    cases result with
    | data bytes =>
      rw [List.mem_singleton] at h
      cases h
      exact .reads line hr
    | ended =>
      rw [List.mem_singleton] at h
      cases h
      exact fails .closed hr (by simp)
    | failed reason =>
      rw [List.mem_singleton] at h
      cases h
      exact fails (.io reason) hr (by simp)

/-- The first move of a call is a deed. -/
theorem deed_of_start (call : LinkCall) (h : l.start c call = (l', events)) :
    Deed l c (.begun call) l' events := by
  cases call with
  | «open» =>
    rw [start] at h
    split at h
    · next hs => cases h; exact .findsOpen hs
    · next hs => cases h; exact .asksOpen hs
  | close => cases h; exact .asksClose
  | send bytes => cases h; exact .asksSend bytes
  | receive most => cases h; exact .asksReceive most

/-- Trying to reach the far end is a deed. -/
theorem deed_of_connect (h : l.connect c = (l', events)) : Deed l c .connecting l' events := by
  unfold connect at h
  split at h
  · cases h; exact .fails _ _
  · cases h; exact .connects _

/-- **Every move of a call is a deed.** -/
theorem deed_of_mem (h : (l', events) ∈ l.movesIn c phase) : Deed l c phase l' events := by
  cases phase with
  | begun call => exact deed_of_start call (List.mem_singleton.mp h).symm
  | openReader =>
    rw [movesIn] at h
    split at h
    · next hl => cases List.mem_singleton.mp h; exact .opensReader hl
    · simp at h
  | openWriter =>
    rw [movesIn] at h
    split at h
    · next hl =>
      split at h
      · next hs => cases List.mem_singleton.mp h; exact .opensLate hl hs
      · next hs => cases List.mem_singleton.mp h; exact .opensWriter hl hs
    · simp at h
  | connecting => exact deed_of_connect (List.mem_singleton.mp h).symm
  | closeWriter =>
    rw [movesIn] at h
    split at h
    · next hl =>
      split at h
      · next hw => cases List.mem_singleton.mp h; exact .takesWriter hl hw
      · next hw =>
        cases List.mem_singleton.mp h
        exact .missesWriter hl (Bool.eq_false_iff.mpr hw)
    · simp at h
  | shuttingDown => cases List.mem_singleton.mp h; exact .shutsDown
  | closeReader =>
    rw [movesIn] at h
    split at h
    · next hl => cases List.mem_singleton.mp h; exact .takesReader hl
    · simp at h
  | sendTurn bytes =>
    rw [movesIn] at h
    split at h
    · next hl =>
      split at h
      · next hw => cases List.mem_singleton.mp h; exact .getsWriter bytes hl hw
      · next hw =>
        cases List.mem_singleton.mp h
        exact .lacksWriter bytes hl (Bool.eq_false_iff.mpr hw)
    · simp at h
  | writing rest =>
    rw [movesIn, List.mem_append] at h
    rcases h with h | h
    · obtain ⟨hs, hm⟩ := ne_open_of_mem_giveUp h
      cases hm
      exact .givesUp hs (Or.inl ⟨rest, rfl⟩)
    · exact deed_of_write h
  | receiveTurn most =>
    rw [movesIn] at h
    split at h
    · next hl =>
      split at h
      · next hr => cases List.mem_singleton.mp h; exact .getsReader most hl hr
      · next hr =>
        cases List.mem_singleton.mp h
        exact .lacksReader most hl (Bool.eq_false_iff.mpr hr)
    · simp at h
  | reading most =>
    rw [movesIn, List.mem_append] at h
    rcases h with h | h
    · obtain ⟨hs, hm⟩ := ne_open_of_mem_giveUp h
      cases hm
      exact .givesUp hs (Or.inr ⟨most, rfl⟩)
    · exact deed_of_read h

/-- A call that moves is under way, and its move is a deed. -/
theorem exists_deed (h : (l', events) ∈ l.moves c) :
    ∃ phase, l.calls.find? c = some phase ∧ Deed l c phase l' events := by
  rw [moves] at h
  split at h
  · simp at h
  · next phase hf => exact ⟨phase, hf, deed_of_mem h⟩

/-! ### How far a call comes -/

/-- How a deed takes a call on: from the phase that it was in to the next. -/
inductive GoesOn (l : Link) : LinkPhase → LinkPhase → Prop where
  /-- An open gets in turn for the reading lock. -/
  | asksOpen : GoesOn l (.begun .open) .openReader
  /-- A close gets in turn for the writing lock. -/
  | asksClose : GoesOn l (.begun .close) .closeWriter
  /-- A send gets in turn for the writing lock. -/
  | asksSend (bytes : Bytes) : GoesOn l (.begun (.send bytes)) (.sendTurn bytes)
  /-- A receive gets in turn for the reading lock. -/
  | asksReceive (most : Nat) : GoesOn l (.begun (.receive most)) (.receiveTurn most)
  /-- An open holds the reading lock. -/
  | opensReader : GoesOn l .openReader .openWriter
  /-- An open holds both locks. -/
  | opensWriter : GoesOn l .openWriter .connecting
  /-- A close takes the writing half. -/
  | takesWriter : l.hasWriter = true → GoesOn l .closeWriter .shuttingDown
  /-- A close finds no writing half. -/
  | missesWriter : GoesOn l .closeWriter .closeReader
  /-- A close shuts the writing half down. -/
  | shutsDown : GoesOn l .shuttingDown .closeReader
  /-- A send finds the writing half. -/
  | getsWriter (bytes : Bytes) : l.hasWriter = true → GoesOn l (.sendTurn bytes) (.writing bytes)
  /-- A receive finds the reading half. -/
  | getsReader (most : Nat) : l.hasReader = true → GoesOn l (.receiveTurn most) (.reading most)
  /-- Some bytes are written. -/
  | writesPartly {rest left : Bytes} (line : Line) :
      l.line.write rest = some (.partly left, line) → GoesOn l (.writing rest) (.writing left)

/-- **A deed takes its call on, or ends it.** -/
theorem Deed.calls_cases (hd : Deed l c phase l' events) :
    (∃ phase', l.GoesOn phase phase' ∧ l'.calls = l.calls.put c phase') ∨
      l'.calls = l.calls.erase c := by
  cases hd with
  | asksOpen => exact Or.inl ⟨_, .asksOpen, rfl⟩
  | asksClose => exact Or.inl ⟨_, .asksClose, rfl⟩
  | asksSend bytes => exact Or.inl ⟨_, .asksSend bytes, rfl⟩
  | asksReceive most => exact Or.inl ⟨_, .asksReceive most, rfl⟩
  | opensReader => exact Or.inl ⟨_, .opensReader, rfl⟩
  | opensWriter => exact Or.inl ⟨_, .opensWriter, rfl⟩
  | takesWriter _ hw => exact Or.inl ⟨_, .takesWriter hw, rfl⟩
  | missesWriter => exact Or.inl ⟨_, .missesWriter, rfl⟩
  | shutsDown => exact Or.inl ⟨_, .shutsDown, rfl⟩
  | getsWriter bytes _ hw => exact Or.inl ⟨_, .getsWriter bytes hw, rfl⟩
  | getsReader most _ hr => exact Or.inl ⟨_, .getsReader most hr, rfl⟩
  | writesPartly line hw => exact Or.inl ⟨_, .writesPartly line hw, rfl⟩
  | _ => exact Or.inr rfl

/-- A call that is still under way was taken on. -/
theorem Deed.goesOn (hd : Deed l c phase l' events) {phase' : LinkPhase}
    (hf : l'.calls.find? c = some phase') : l.GoesOn phase phase' := by
  rcases hd.calls_cases with ⟨phase'', hon, hcalls⟩ | hcalls
  · rw [hcalls, Directory.find?_put, if_pos rfl, Option.some.injEq] at hf
    exact hf ▸ hon
  · rw [hcalls, Directory.find?_erase, if_pos rfl] at hf
    cases hf

/-- A deed leaves the other calls where they are. -/
theorem Deed.other (hd : Deed l c phase l' events) (d : CallId) (hne : d ≠ c) :
    l'.calls.find? d = l.calls.find? d := by
  rcases hd.calls_cases with ⟨phase', _, hcalls⟩ | hcalls
  · rw [hcalls, Directory.find?_put, if_neg (Ne.symm hne)]
  · rw [hcalls, Directory.find?_erase, if_neg (Ne.symm hne)]

theorem Deed.nextCall_eq (hd : Deed l c phase l' events) : l'.nextCall = l.nextCall := by
  cases hd with
  | _ => rfl

/-! ### What becomes known -/

theorem mem_noted {e : LinkEvent} {line : Line} (h : e ∈ l.noted c line) :
    ∃ bytes, e = .wrote c bytes := by
  simp only [noted] at h
  split at h
  · cases h
  · exact ⟨_, List.mem_singleton.mp h⟩

/-- That the line took bytes ends no call. -/
theorem finished_notMem_noted (d : CallId) (result : LinkResult) (line : Line) :
    .finished d result ∉ l.noted c line := fun hm => by
  obtain ⟨_, he⟩ := mem_noted hm
  cases he

/-- That the link changed ends no call. -/
theorem finished_notMem_published {published : List LinkEvent}
    (h : published = [] ∨ published = [.changed]) (d : CallId) (result : LinkResult) :
    .finished d result ∉ published := by
  rcases h with rfl | rfl
  · simp
  · simp

/-- The far end is reached by an open that holds both locks, and by nothing else. -/
theorem Deed.eq_reached (hd : Deed l c phase l' events) (h : .connected ∈ events) :
    phase = .connecting ∧ ∃ connects, l' = (l.reached connects).abort c := by
  have not_noted : ∀ line, LinkEvent.connected ∉ l.noted c line := fun line hm => by
    obtain ⟨_, he⟩ := mem_noted hm
    cases he
  have not_published : ∀ {published : List LinkEvent}, published = [] ∨ published = [.changed] →
      .connected ∉ published := by
    rintro _ (rfl | rfl)
    · simp
    · simp
  cases hd with
  | connects connects => exact ⟨rfl, connects, rfl⟩
  | writes line => simp [not_noted line] at h
  | writesPartly line => exact absurd h (not_noted line)
  | writeFails line _ _ hp => simp [not_noted line, not_published hp] at h
  | readFails _ _ _ _ _ hp => simp [not_published hp] at h
  | _ => simp at h

/-- **What happens is a deed of a call under way, or is done from outside.** -/
theorem happens_cases {o : Occurrence} (h : Happens l o l') :
    (∃ c events phase, o = .move c events ∧ l.calls.find? c = some phase ∧
      Deed l c phase l' events) ∨ ∃ i, o = .input i ∧ l' = l.apply i := by
  cases h with
  | @move _ c events hm =>
    obtain ⟨phase, hf, hd⟩ := exists_deed hm
    exact Or.inl ⟨c, events, phase, rfl, hf, hd⟩
  | input i => exact Or.inr ⟨i, rfl, rfl⟩

end Link

end ZoneBus
