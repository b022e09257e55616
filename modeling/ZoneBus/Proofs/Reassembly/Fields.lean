import ZoneBus.Proofs.Reassembly.Calls

/-!
# A buffer in separate fields

A buffer can be kept in fields that nothing ties together: where it stands, the bytes in
progress, the last value and its time, and which packet comes next.  The calls set these
fields one by one, each call its own few of them, and some are left as they were when a
transfer ends.  Still they always fit: such a buffer answers every call like one that holds
a whole transfer or none, and shows the same.

## Main definitions

* `FieldBuffer`, with `begin`, `write`, `writePacket`, `finish` and `abandon` — the fields,
  and the calls on them.
* `FieldBuffer.Matches` — the fields are those of a buffer.

## Main results

* `FieldBuffer.matches_call`, `matches_run` — both answer the same, and go on matching.
* `FieldBuffer.fields_fit` — **what holds of the fields after any calls, and what one more
  call does to them.**
-/

namespace ZoneBus

/-- A buffer in separate fields. -/
structure FieldBuffer where
  /-- The path whose value it holds. -/
  path : Path
  /-- Where it stands. -/
  state : BufferState
  /-- The bytes of the transfer in progress. -/
  inProgress : Bytes
  /-- The last value published whole. -/
  complete : Option Bytes
  /-- When it was published. -/
  lastModified : Option Instant
  /-- The packet number that comes next. -/
  nextPacket : UInt16
  /-- The packet count of the transfer. -/
  packetCount : UInt16
deriving DecidableEq

namespace FieldBuffer

/-! ### The calls -/

/-- A buffer that nothing was written to. -/
def fresh (path : Path) : FieldBuffer := ⟨path, .empty, [], none, none, 0, 0⟩

/-- Opens a transfer and discards an unfinished one. -/
def begin (f : FieldBuffer) : FieldBuffer :=
  { f with inProgress := [], state := .writing, nextPacket := 0, packetCount := 0 }

/-- Discards the transfer in progress. -/
def abandon (f : FieldBuffer) : FieldBuffer :=
  { f with inProgress := [], state := if f.complete.isSome then .complete else .empty }

/-- Does something to a buffer with an open transfer. -/
def whenWriting {α : Type} (f : FieldBuffer) (act : Except BufferError α × FieldBuffer) :
    Except BufferError α × FieldBuffer :=
  if f.state ≠ .writing then (.error (.noActiveWrite f.path), f) else act

/-- Adds a fragment to the open transfer. -/
def write (f : FieldBuffer) (fragment : Bytes) : Except BufferError Unit × FieldBuffer :=
  f.whenWriting (.ok (), { f with inProgress := f.inProgress ++ fragment })

/-- Closes the open transfer and publishes its value. -/
def finish (f : FieldBuffer) (now : Instant) : Except BufferError Bytes × FieldBuffer :=
  f.whenWriting (.ok f.inProgress,
    { f with
      inProgress := [], complete := some f.inProgress, state := .complete
      lastModified := some now })

/-- Takes the fragment of a packet whose number fits the transfer, and publishes the value
when the packet completes the count. -/
def accept (f : FieldBuffer) (now : Instant) (number : UInt16) (fragment : Bytes) :
    Except BufferError (Option Bytes) × FieldBuffer :=
  let f' := { f with inProgress := f.inProgress ++ fragment, nextPacket := nextNumber number }
  if f'.packetCount ≤ f'.nextPacket then ((f'.finish now).1.map some, (f'.finish now).2)
  else (.ok none, f')

/-- Takes a numbered packet. -/
def writePacket (f : FieldBuffer) (now : Instant) (number count : UInt16) (fragment : Bytes) :
    Except BufferError (Option Bytes) × FieldBuffer :=
  if number = 0 then { f.begin with packetCount := count }.accept now number fragment
  else f.whenWriting
    (if number ≠ f.nextPacket ∨ count ≠ f.packetCount then
      (.error (.outOfSequence f.path f.nextPacket f.packetCount number count), f.abandon)
    else f.accept now number fragment)

/-- What a call answers, and the buffer after it. -/
def call (f : FieldBuffer) : BufferCall → Except BufferError (Option Bytes) × FieldBuffer
  | .begin => (.ok none, f.begin)
  | .write fragment => ((f.write fragment).1.map fun _ => none, (f.write fragment).2)
  | .packet a => f.writePacket a.time a.number a.count a.bytes
  | .finish now => ((f.finish now).1.map some, (f.finish now).2)
  | .abandon => (.ok none, f.abandon)

/-! ### The fields of a buffer -/

/-- The fields are those of a buffer.  Which packet comes next is only told while a transfer
is open. -/
structure Matches (f : FieldBuffer) (b : Buffer) : Prop where
  /-- The path. -/
  path : f.path = b.path
  /-- Where it stands. -/
  state : f.state = b.state
  /-- The bytes in progress. -/
  inProgress : f.inProgress = b.pendingBytes
  /-- The last value. -/
  complete : f.complete = b.read
  /-- Its time. -/
  lastModified : f.lastModified = b.lastModified
  /-- The packet that comes next. -/
  next : ∀ t, b.transfer = some t → f.nextPacket = t.next ∧ f.packetCount = t.count

variable {f : FieldBuffer} {b : Buffer}

theorem matches_fresh (path : Path) : (fresh path).Matches (.fresh path) :=
  ⟨rfl, rfl, rfl, rfl, rfl, fun _ ht => by cases ht⟩

theorem whenWriting_of_open {α : Type} (h : f.state = .writing)
    (act : Except BufferError α × FieldBuffer) : f.whenWriting act = act :=
  if_neg (not_not_intro h)

theorem whenWriting_of_closed {α : Type} (h : f.state ≠ .writing)
    (act : Except BufferError α × FieldBuffer) :
    f.whenWriting act = (.error (.noActiveWrite f.path), f) :=
  if_pos h

theorem Matches.closed (h : f.Matches b) (ht : b.transfer = none) : f.state ≠ .writing := by
  rw [h.state, ne_eq, Buffer.state_eq_writing_iff, ht]
  exact Bool.false_ne_true

theorem Matches.opened (h : f.Matches b) {t : OpenTransfer} (ht : b.transfer = some t) :
    f.state = .writing ∧ f.inProgress = t.bytes := by
  rw [h.state, Buffer.state_eq_writing_iff, h.inProgress, Buffer.pendingBytes, ht]
  exact ⟨rfl, rfl⟩

theorem Matches.begin (h : f.Matches b) : f.begin.Matches b.begin where
  path := h.path
  state := rfl
  inProgress := rfl
  complete := h.complete
  lastModified := h.lastModified
  next := fun _ ht => by
    obtain rfl := Option.some.inj ht
    exact ⟨rfl, rfl⟩

theorem Matches.abandon (h : f.Matches b) : f.abandon.Matches b.abandon where
  path := h.path
  state := by
    rw [FieldBuffer.abandon, h.complete, Buffer.read, Buffer.abandon, Buffer.state]
    cases b.published <;> rfl
  inProgress := rfl
  complete := h.complete
  lastModified := h.lastModified
  next := fun _ ht => by cases ht

/-- Closing the open transfer. -/
theorem Matches.finish (h : f.Matches b) {t : OpenTransfer} (ht : b.transfer = some t)
    (now : Instant) :
    (f.finish now).1 = .ok t.bytes ∧ (f.finish now).2.Matches (b.publish now t) := by
  obtain ⟨hstate, hbytes⟩ := h.opened ht
  rw [FieldBuffer.finish, whenWriting_of_open hstate, hbytes]
  exact ⟨rfl, h.path, rfl, rfl, rfl, rfl, fun _ ht => by cases ht⟩

/-- Taking a fragment of the open transfer. -/
theorem Matches.accept (h : f.Matches b) {t : OpenTransfer} (ht : b.transfer = some t)
    (now : Instant) (number : UInt16) (fragment : Bytes) :
    (f.accept now number fragment).1 = .ok (b.accept now t number fragment).1 ∧
      (f.accept now number fragment).2.Matches (b.accept now t number fragment).2 := by
  obtain ⟨hstate, hbytes⟩ := h.opened ht
  obtain ⟨_, hcount⟩ := h.next t ht
  -- both with the fragment added
  let t' := { t.add fragment with next := nextNumber number }
  have hadded : Matches
      { f with inProgress := f.inProgress ++ fragment, nextPacket := nextNumber number }
      { b with transfer := some t' } := by
    refine ⟨h.path, hstate, ?_, h.complete, h.lastModified, fun _ ht' => ?_⟩
    · rw [hbytes]
      exact (OpenTransfer.bytes_add t fragment).symm
    · obtain rfl := Option.some.inj ht'
      exact ⟨rfl, hcount⟩
  rw [FieldBuffer.accept, Buffer.accept]
  dsimp only
  by_cases hlast : t.count ≤ nextNumber number
  · obtain ⟨hanswer, hfinished⟩ := hadded.finish rfl now
    rw [if_pos (hcount ▸ hlast : f.packetCount ≤ nextNumber number),
      if_pos (show (t.add fragment).count ≤ nextNumber number from hlast), hanswer]
    exact ⟨rfl, hfinished⟩
  · rw [if_neg (hcount ▸ hlast : ¬f.packetCount ≤ nextNumber number),
      if_neg (show ¬(t.add fragment).count ≤ nextNumber number from hlast)]
    exact ⟨rfl, hadded⟩

/-- Taking a numbered packet. -/
theorem Matches.packet (h : f.Matches b) (now : Instant) (number count : UInt16)
    (fragment : Bytes) :
    (f.writePacket now number count fragment).1 = (b.writePacket now number count fragment).1 ∧
      (f.writePacket now number count fragment).2.Matches
        (b.writePacket now number count fragment).2 := by
  rw [FieldBuffer.writePacket, Buffer.writePacket]
  by_cases hzero : number = 0
  · rw [if_pos hzero, if_pos hzero]
    have hopened : Matches { f.begin with packetCount := count }
        { b with transfer := some (.start count) } :=
      ⟨h.path, rfl, rfl, h.complete, h.lastModified, fun _ ht => by
        obtain rfl := Option.some.inj ht
        exact ⟨rfl, rfl⟩⟩
    exact hopened.accept rfl now number fragment
  · rw [if_neg hzero, if_neg hzero]
    cases ht : b.transfer with
    | none =>
      rw [whenWriting_of_closed (h.closed ht), h.path]
      exact ⟨rfl, h⟩
    | some t =>
      obtain ⟨hnext, hcount⟩ := h.next t ht
      rw [whenWriting_of_open (h.opened ht).1, hnext, hcount, h.path]
      dsimp only
      by_cases hfits : number = t.next ∧ count = t.count
      · rw [if_pos hfits, if_neg (not_or.mpr ⟨not_not_intro hfits.1, not_not_intro hfits.2⟩)]
        exact h.accept ht now number fragment
      · rw [if_neg hfits, if_pos (not_and_or.mp hfits)]
        exact ⟨rfl, h.abandon⟩

/-- **A call is answered the same, and the fields go on matching.** -/
theorem matches_call (h : f.Matches b) (c : BufferCall) :
    (f.call c).1 = (b.call c).1 ∧ (f.call c).2.Matches (b.call c).2 := by
  cases c with
  | begin => exact ⟨rfl, h.begin⟩
  | abandon => exact ⟨rfl, h.abandon⟩
  | packet a => exact h.packet a.time a.number a.count a.bytes
  | write fragment =>
    rw [call, FieldBuffer.write, Buffer.call, Buffer.write]
    cases ht : b.transfer with
    | none =>
      rw [whenWriting_of_closed (h.closed ht), h.path]
      exact ⟨rfl, h⟩
    | some t =>
      obtain ⟨hstate, hbytes⟩ := h.opened ht
      rw [whenWriting_of_open hstate, hbytes]
      refine ⟨rfl, h.path, hstate, (OpenTransfer.bytes_add t fragment).symm, h.complete,
        h.lastModified, fun _ ht' => ?_⟩
      obtain rfl := Option.some.inj ht'
      exact h.next t ht
  | finish now =>
    rw [call, Buffer.call, Buffer.finish]
    cases ht : b.transfer with
    | none =>
      rw [FieldBuffer.finish, whenWriting_of_closed (h.closed ht), h.path]
      exact ⟨rfl, h⟩
    | some t =>
      obtain ⟨hanswer, hfinished⟩ := h.finish ht now
      rw [hanswer]
      exact ⟨rfl, hfinished⟩

/-- Both answer any calls the same, and match in the end. -/
theorem matches_run (path : Path) (calls : List BufferCall) :
    (runOps call (fresh path) calls).1 = (runOps Buffer.call (.fresh path) calls).1 ∧
      (runOps call (fresh path) calls).2.Matches (runOps Buffer.call (.fresh path) calls).2 :=
  runOps_eq_of_inStep (fun c _ _ _ h => matches_call h c) calls _ _ (matches_fresh path)

/-! ### What a failure leaves -/

theorem accept_ok (h : f.state = .writing) (now : Instant) (number : UInt16)
    (fragment : Bytes) : ∃ value, (f.accept now number fragment).1 = .ok value := by
  have hopen : FieldBuffer.state
      { f with inProgress := f.inProgress ++ fragment, nextPacket := nextNumber number } =
        .writing := h
  rw [accept]
  dsimp only
  split
  · rw [finish, whenWriting_of_open hopen]
    exact ⟨_, rfl⟩
  · exact ⟨_, rfl⟩

/-- **A call that fails** was about a transfer and there was none, and leaves every field as
it is; or its packet was out of sequence, and it leaves every field as dropping the transfer
does. -/
theorem call_fails {c : BufferCall} {error : BufferError} (h : (f.call c).1 = .error error) :
    error = .noActiveWrite f.path ∧ (f.call c).2 = f ∨
      (∃ number count, error = .outOfSequence f.path f.nextPacket f.packetCount number count) ∧
        (f.call c).2 = f.abandon := by
  cases c with
  | begin | abandon => cases h
  | write fragment =>
    rw [call, write] at h ⊢
    by_cases hopen : f.state = .writing
    · rw [whenWriting_of_open hopen] at h
      cases h
    · rw [whenWriting_of_closed hopen] at h ⊢
      exact Or.inl ⟨(Except.error.inj h).symm, rfl⟩
  | finish now =>
    rw [call, finish] at h ⊢
    by_cases hopen : f.state = .writing
    · rw [whenWriting_of_open hopen] at h
      cases h
    · rw [whenWriting_of_closed hopen] at h ⊢
      exact Or.inl ⟨(Except.error.inj h).symm, rfl⟩
  | packet a =>
    rw [call, writePacket] at h ⊢
    by_cases hzero : a.number = 0
    · obtain ⟨value, hok⟩ :=
        accept_ok (f := { f.begin with packetCount := a.count }) rfl a.time a.number a.bytes
      rw [if_pos hzero, hok] at h
      cases h
    · rw [if_neg hzero] at h ⊢
      by_cases hopen : f.state = .writing
      · rw [whenWriting_of_open hopen] at h ⊢
        split at h
        · next hbreaks =>
          rw [if_pos hbreaks]
          exact Or.inr ⟨⟨_, _, (Except.error.inj h).symm⟩, rfl⟩
        · obtain ⟨value, hok⟩ := accept_ok hopen a.time a.number a.bytes
          rw [hok] at h
          cases h
      · rw [whenWriting_of_closed hopen] at h ⊢
        exact Or.inl ⟨(Except.error.inj h).symm, rfl⟩

/-! ### Any calls -/

/-- **The fields fit, whatever is called.**  After any calls on a fresh buffer, and on one
that is kept in fields, both answered the same and show the same.

Outside a transfer nothing is in progress; in one, what was brought since it was opened.
The buffer stands as empty only when no call has published a value, and as complete only
when one has.  What can be read is the value that was published last, and there is a time
exactly when there is a value.

One more call that publishes makes what was brought since the transfer was opened the value,
at the time of the call; any other leaves the value and its time.  It is refused exactly when
it is about an open transfer and there is none, and leaves every field as it is then; and
when it is out of sequence, it leaves every field as dropping the transfer does. -/
theorem fields_fit (path : Path) (calls : List BufferCall) :
    let ran := runOps call (fresh path) calls
    let f := ran.2
    let whole := runOps Buffer.call (.fresh path) calls
    (ran.1 = whole.1 ∧ f.Matches whole.2) ∧
      (f.state ≠ .writing → f.inProgress = []) ∧
      (f.state = .writing → Buffer.SinceOpened calls f.inProgress) ∧
      (f.state = .empty → ∀ answer ∈ ran.1, Buffer.published? answer = none) ∧
      (f.state = .complete → ∃ answer ∈ ran.1, Buffer.published? answer ≠ none) ∧
      f.complete = (ran.1.filterMap Buffer.published?).getLast? ∧
      (f.lastModified.isSome = true ↔ f.complete.isSome = true) ∧
      ∀ c : BufferCall, let next := f.call c
        (∀ value, next.1 = .ok (some value) → Buffer.SinceOpened (calls ++ [c]) value ∧
          next.2.complete = some value ∧ next.2.lastModified = c.time?) ∧
        (Buffer.published? next.1 = none →
          next.2.complete = f.complete ∧ next.2.lastModified = f.lastModified) ∧
        (next.1 = .error (.noActiveWrite f.path) ↔
          c.needsTransfer = true ∧ f.state ≠ .writing) ∧
        (∀ path', next.1 = .error (.noActiveWrite path') → next.2 = f) ∧
        ∀ path' expected expectedCount number count,
          next.1 = .error (.outOfSequence path' expected expectedCount number count) →
            next.2 = (f.call .abandon).2 := by
  obtain ⟨hanswers, hmatches⟩ := matches_run path calls
  obtain ⟨hclosed, hopen, hempty, hcomplete, hread, htime, hnext⟩ :=
    Buffer.value_survives path calls
  intro ran f whole
  refine ⟨⟨hanswers, hmatches⟩, ?_, ?_, ?_, ?_, ?_, ?_, fun c => ?_⟩
  · rw [hmatches.state, hmatches.inProgress]
    exact hclosed
  · rw [hmatches.state, hmatches.inProgress]
    exact hopen
  · rw [hmatches.state, hanswers]
    exact hempty
  · rw [hmatches.state, hanswers]
    exact hcomplete
  · rw [hmatches.complete, hanswers]
    exact hread
  · rw [hmatches.lastModified, hmatches.complete]
    exact htime
  · obtain ⟨hanswer, hafter⟩ := matches_call hmatches c
    obtain ⟨hpublishes, hkeeps, hrefused, _, _⟩ := hnext c
    refine ⟨?_, ?_, ?_, fun path' herror => ?_, fun path' _ _ _ _ herror => ?_⟩
    · rw [hanswer, hafter.complete, hafter.lastModified]
      exact hpublishes
    · rw [hanswer, hafter.complete, hafter.lastModified, hmatches.complete,
        hmatches.lastModified]
      exact hkeeps
    · rw [hanswer, hmatches.path, hmatches.state]
      exact hrefused
    · rcases call_fails herror with ⟨_, hsame⟩ | ⟨⟨_, _, hother⟩, _⟩
      · exact hsame
      · cases hother
    · rcases call_fails herror with ⟨hother, _⟩ | ⟨_, hdropped⟩
      · cases hother
      · exact hdropped

/-- When a transfer ends, the fields that say which packet comes next are left as they are;
nothing else is left of it. -/
example : (runOps call (fresh .root)
    [.packet ⟨1, 0, 3, [1]⟩, .packet ⟨2, 1, 3, [2]⟩, .packet ⟨3, 1, 3, [3]⟩]) =
      ([.ok none, .ok none, .error (.outOfSequence .root 2 3 1 3)],
        ⟨.root, .empty, [], none, none, 2, 3⟩) := by
  rfl

end FieldBuffer

end ZoneBus
