import ZoneBus.Proofs.Reassembly.Windows
import ZoneBus.Proofs.Runs

/-!
# A buffer under any calls

Transfers can be driven by hand, or by numbered packets, and nothing keeps a caller from
mixing the two.  Whatever is called in whatever order, a call goes one of five ways: it is
refused, it breaks the open transfer, it drops it, it goes on with it, or it publishes what
it has gathered.  Only the last one touches the value that can be read, and only the third
one and the last one end a transfer that was going well.

## Main definitions

* `BufferCall`, `Buffer.call` — the calls on a buffer.
* `BufferCall.opens`, `BufferCall.bytes` — whether a call opens a transfer, and the bytes
  that it brings.
* `Buffer.CallWay` — the ways of a call.
* `Buffer.SinceOpened` — the bytes that were brought since a transfer was opened.

## Main results

* `Buffer.callWay_call` — **there are no other ways.**
* `Buffer.gathers_run` — an open transfer has gathered what was brought since it was opened.
* `Buffer.read_run` — what can be read is the value that was published last.
* `Buffer.value_survives` — **what holds of a buffer after any calls, and what one more
  call can do to its value.**
-/

namespace ZoneBus

/-! ### Calls -/

/-- A call on a buffer. -/
inductive BufferCall where
  /-- Opens a transfer. -/
  | begin
  /-- Adds a fragment to the open transfer. -/
  | write (fragment : Bytes)
  /-- Takes a numbered packet. -/
  | packet (fragment : Fragment)
  /-- Closes the open transfer and publishes its value. -/
  | finish (now : Instant)
  /-- Discards the open transfer. -/
  | abandon
deriving DecidableEq

namespace BufferCall

/-- Whether a call opens a transfer, whatever was open before. -/
def opens : BufferCall → Bool
  | begin => true
  | packet a => decide (a.number = 0)
  | _ => false

/-- The bytes that a call brings. -/
def bytes : BufferCall → Bytes
  | write fragment => fragment
  | packet a => a.bytes
  | _ => []

/-- When a call is made, if it tells. -/
def time? : BufferCall → Option Instant
  | packet a => some a.time
  | finish now => some now
  | _ => none

/-- Whether a call is about a transfer that must be open already. -/
def needsTransfer : BufferCall → Bool
  | write _ => true
  | packet a => decide (a.number ≠ 0)
  | finish _ => true
  | _ => false

end BufferCall

namespace Buffer

/-- What a call answers, and the buffer after it.  An answer holds the value that the call
publishes, if it publishes one. -/
def call (b : Buffer) : BufferCall → Except BufferError (Option Bytes) × Buffer
  | .begin => (.ok none, b.begin)
  | .write fragment => ((b.write fragment).1.map fun _ => none, (b.write fragment).2)
  | .packet a => b.takeFragment a
  | .finish now => ((b.finish now).1.map some, (b.finish now).2)
  | .abandon => (.ok none, b.abandon)

variable {b : Buffer} {c : BufferCall} {calls : List BufferCall} {t : OpenTransfer}

/-! ### The ways of a call -/

/-- What the open transfer has gathered for a call to add to: nothing when the call opens
one anew. -/
def before (b : Buffer) (c : BufferCall) : Bytes := if c.opens then [] else b.pendingBytes

/-- What a call answers, and what it leaves. -/
inductive CallWay (b : Buffer) (c : BufferCall) :
    Except BufferError (Option Bytes) → Buffer → Prop where
  /-- There is no transfer for the call to be about. -/
  | refused : c.needsTransfer = true → b.transfer = none →
      CallWay b c (.error (.noActiveWrite b.path)) b
  /-- A packet that does not continue the open transfer breaks it. -/
  | breaks {t : OpenTransfer} {a : Fragment} : c = .packet a → b.transfer = some t →
      ¬(a.number = t.next ∧ a.count = t.count) →
      CallWay b c (.error (.outOfSequence b.path t.next t.count a.number a.count)) b.abandon
  /-- The open transfer is dropped. -/
  | drops : c = .abandon → CallWay b c (.ok none) b.abandon
  /-- A transfer goes on, or is opened. -/
  | goesOn {t : OpenTransfer} : t.bytes = b.before c ++ c.bytes →
      (c.opens = true ∨ b.transfer.isSome = true) →
      CallWay b c (.ok none) { b with transfer := some t }
  /-- What was gathered is published. -/
  | publishes {now : Instant} : c.time? = some now →
      (c.opens = true ∨ b.transfer.isSome = true) →
      CallWay b c (.ok (some (b.before c ++ c.bytes)))
        { b with transfer := none, published := some ⟨b.before c ++ c.bytes, now⟩ }

/-- A packet that opens a transfer or continues the open one is added to it, and may
complete it. -/
theorem callWay_accept {a : Fragment} (hbytes : t.bytes = b.before (.packet a))
    (h : (BufferCall.packet a).opens = true ∨ b.transfer.isSome = true) :
    CallWay b (.packet a) (.ok (b.accept a.time t a.number a.bytes).1)
      (b.accept a.time t a.number a.bytes).2 := by
  by_cases hlast : t.count ≤ nextNumber a.number
  · rw [accept_of_le hlast, hbytes]
    exact .publishes rfl h
  · rw [accept_of_lt hlast]
    exact .goesOn ((OpenTransfer.bytes_add t a.bytes).trans (congrArg (· ++ a.bytes) hbytes)) h

/-- A packet goes one of the ways. -/
theorem callWay_packet (b : Buffer) (a : Fragment) :
    CallWay b (.packet a) (b.takeFragment a).1 (b.takeFragment a).2 := by
  rw [takeFragment, writePacket]
  by_cases hzero : a.number = 0
  · have hopens : (BufferCall.packet a).opens = true := decide_eq_true hzero
    rw [if_pos hzero]
    exact callWay_accept (by rw [before, if_pos hopens]; rfl) (Or.inl hopens)
  · have hopens : ¬(BufferCall.packet a).opens = true := by simpa [BufferCall.opens] using hzero
    rw [if_neg hzero]
    cases ht : b.transfer with
    | none => exact .refused (decide_eq_true hzero) ht
    | some t =>
      dsimp only
      by_cases hnext : a.number = t.next ∧ a.count = t.count
      · rw [if_pos hnext]
        refine callWay_accept ?_ (Or.inr (by rw [ht]; rfl))
        rw [before, if_neg hopens, pendingBytes, ht]
        rfl
      · rw [if_neg hnext]
        exact .breaks rfl ht hnext

/-- **A call goes one of the ways.** -/
theorem callWay_call (b : Buffer) (c : BufferCall) : CallWay b c (b.call c).1 (b.call c).2 := by
  cases c with
  | begin => exact .goesOn rfl (Or.inl rfl)
  | write fragment =>
    rw [call, write]
    cases ht : b.transfer with
    | none => exact .refused rfl ht
    | some t =>
      refine .goesOn ?_ (Or.inr (by rw [ht]; rfl))
      rw [OpenTransfer.bytes_add, before, pendingBytes, ht]
      rfl
  | packet a => exact callWay_packet b a
  | finish now =>
    rw [call, finish]
    cases ht : b.transfer with
    | none => exact .refused rfl ht
    | some t =>
      have hbefore : t.bytes = b.before (.finish now) ++ (BufferCall.finish now).bytes := by
        rw [before, pendingBytes, ht]
        exact (List.append_nil _).symm
      dsimp only [publish]
      rw [hbefore]
      exact .publishes rfl (Or.inr (by rw [ht]; rfl))
  | abandon => exact .drops rfl

/-! ### What a call does to the value -/

/-- A call that publishes a value makes it the one that can be read, at its own time. -/
theorem CallWay.published {answer : Except BufferError (Option Bytes)} {b' : Buffer}
    (h : CallWay b c answer b') {value : Bytes} (hanswer : answer = .ok (some value)) :
    value = b.before c ++ c.bytes ∧ (c.opens = true ∨ b.transfer.isSome = true) ∧
      b'.read = some value ∧ b'.lastModified = c.time? := by
  cases h with
  | publishes htime hopen =>
    obtain rfl := Option.some.inj (Except.ok.inj hanswer)
    exact ⟨rfl, hopen, rfl, htime.symm⟩
  | refused | breaks | drops | goesOn => cases hanswer

/-- Any other call leaves the value as it is. -/
theorem CallWay.kept {answer : Except BufferError (Option Bytes)} {b' : Buffer}
    (h : CallWay b c answer b') (hanswer : published? answer = none) :
    b'.published = b.published := by
  cases h with
  | publishes => cases hanswer
  | refused | breaks | drops | goesOn => rfl

/-- A call that is refused leaves the buffer as it is. -/
theorem CallWay.unchanged {answer : Except BufferError (Option Bytes)} {b' : Buffer}
    (h : CallWay b c answer b') {path : Path} (hanswer : answer = .error (.noActiveWrite path)) :
    b' = b := by
  cases h with
  | refused => rfl
  | breaks | drops | goesOn | publishes => cases hanswer

/-- A packet out of sequence does what dropping the transfer would have done. -/
theorem CallWay.abandoned {answer : Except BufferError (Option Bytes)} {b' : Buffer}
    (h : CallWay b c answer b') {path : Path} {next count number count' : UInt16}
    (hanswer : answer = .error (.outOfSequence path next count number count')) :
    b' = b.abandon := by
  cases h with
  | breaks => rfl
  | refused | drops | goesOn | publishes => cases hanswer

/-- A call is refused when it is about an open transfer and there is none. -/
theorem refused_iff (b : Buffer) (c : BufferCall) :
    (b.call c).1 = .error (.noActiveWrite b.path) ↔
      c.needsTransfer = true ∧ b.transfer = none := by
  constructor
  · intro h
    have hway := callWay_call b c
    rw [h] at hway
    generalize (b.call c).2 = b' at hway
    cases hway with
    | refused hneeds ht => exact ⟨hneeds, ht⟩
  · rintro ⟨hneeds, ht⟩
    cases c with
    | begin | abandon => cases hneeds
    | write fragment => rw [call, write, ht]; rfl
    | finish now => rw [call, finish, ht]; rfl
    | packet a => rw [call, takeFragment, writePacket, if_neg (of_decide_eq_true hneeds), ht]

/-! ### Any calls -/

/-- These are the bytes that were brought since the latest call that opened a transfer. -/
def SinceOpened (calls : List BufferCall) (bytes : Bytes) : Prop :=
  ∃ opening more, opening :: more <:+ calls ∧ opening.opens = true ∧
    (∀ c ∈ more, c.opens = false) ∧ bytes = ((opening :: more).map BufferCall.bytes).flatten

/-- What an open transfer has gathered was brought since it was opened. -/
def Gathers (b : Buffer) (calls : List BufferCall) : Prop :=
  ∀ t, b.transfer = some t → SinceOpened calls t.bytes

/-- A call adds its bytes to what was gathered. -/
theorem Gathers.sinceOpened (h : b.Gathers calls)
    (hopen : c.opens = true ∨ b.transfer.isSome = true) :
    SinceOpened (calls ++ [c]) (b.before c ++ c.bytes) := by
  by_cases hopens : c.opens = true
  · refine ⟨c, [], List.suffix_append calls [c], hopens, List.forall_mem_nil _, ?_⟩
    rw [before, if_pos hopens]
    simp
  · obtain ⟨t, ht⟩ := Option.isSome_iff_exists.mp (hopen.resolve_left hopens)
    obtain ⟨opening, more, ⟨earlier, hcalls⟩, hopening, hmore, hbytes⟩ := h t ht
    refine ⟨opening, more ++ [c], ⟨earlier, ?_⟩, hopening, ?_, ?_⟩
    · rw [← hcalls, List.append_assoc, List.cons_append]
    · rw [List.forall_mem_append, List.forall_mem_singleton]
      exact ⟨hmore, Bool.eq_false_iff.mpr hopens⟩
    · have hpending : b.pendingBytes = t.bytes := by rw [pendingBytes, ht]; rfl
      rw [before, if_neg hopens, hpending, hbytes]
      simp

theorem gathers_call (h : b.Gathers calls) (c : BufferCall) :
    (b.call c).2.Gathers (calls ++ [c]) := by
  have hway := callWay_call b c
  generalize (b.call c).1 = answer at hway
  generalize (b.call c).2 = b' at hway ⊢
  intro t ht
  cases hway with
  | refused _ hnone => rw [hnone] at ht; cases ht
  | breaks | drops | publishes => cases ht
  | goesOn hbytes hopen =>
    obtain rfl := Option.some.inj ht
    rw [hbytes]
    exact h.sinceOpened hopen

/-- **An open transfer has gathered what was brought since it was opened.** -/
theorem gathers_run (path : Path) (calls : List BufferCall) :
    (runOps call (fresh path) calls).2.Gathers calls := by
  induction calls using List.reverseRecOn with
  | nil => exact fun t ht => by cases ht
  | append_singleton calls c ih =>
    rw [runOps_append]
    exact gathers_call ih c

/-- What can be read is the value that was published last, if one was. -/
theorem read_run (path : Path) (calls : List BufferCall) :
    (runOps call (fresh path) calls).2.read =
      ((runOps call (fresh path) calls).1.filterMap published?).getLast? := by
  induction calls using List.reverseRecOn with
  | nil => rfl
  | append_singleton calls c ih =>
    rw [runOps_append, List.filterMap_append, List.getLast?_append, ← ih]
    generalize (runOps call (fresh path) calls).2 = b
    show (b.call c).2.read = ([(b.call c).1].filterMap published?).getLast?.or b.read
    have hway := callWay_call b c
    cases hp : published? (b.call c).1 with
    | none =>
      rw [List.filterMap_cons_none hp]
      exact congrArg (Option.map Publication.value) (hway.kept hp)
    | some value =>
      rw [List.filterMap_cons_some hp]
      have hanswer : (b.call c).1 = .ok (some value) := by
        generalize (b.call c).1 = answer at hp
        cases answer with
        | error e => cases hp
        | ok v => rw [show v = some value from hp]
      exact (hway.published hanswer).2.2.1

/-- Some value can be read when a value was published. -/
theorem read_eq_none_iff (path : Path) (calls : List BufferCall) :
    (runOps call (fresh path) calls).2.read = none ↔
      ∀ answer ∈ (runOps call (fresh path) calls).1, published? answer = none := by
  rw [read_run, List.getLast?_eq_none_iff, List.filterMap_eq_nil_iff]

theorem state_eq_writing_iff : b.state = .writing ↔ b.transfer.isSome = true := by
  rw [state]
  cases b.transfer <;> cases b.published <;> simp

theorem state_eq_empty_iff : b.state = .empty ↔ b.transfer = none ∧ b.read = none := by
  rw [state, read]
  cases b.transfer <;> cases b.published <;> simp

theorem state_eq_complete_iff : b.state = .complete ↔ b.transfer = none ∧ b.read ≠ none := by
  rw [state, read]
  cases b.transfer <;> cases b.published <;> simp

/-- **What holds of a buffer after any calls, and what one more call can do to its value.**
Outside a transfer nothing is in progress; in one, what was brought since it was opened.
The state is empty only when no call has published a value, and complete only when one has.
What can be read is the value that was published last; it has a time, and nothing else has.

One more call that publishes makes what was brought since the transfer was opened the value,
at the time of the call; any other leaves the value and its time.  It is refused exactly when
it is about an open transfer and there is none, and leaves the buffer as it is then; and when
it is out of sequence, it does what dropping the transfer would have done. -/
theorem value_survives (path : Path) (calls : List BufferCall) :
    let ran := runOps call (fresh path) calls
    let b := ran.2
    (b.state ≠ .writing → b.pendingBytes = []) ∧
      (b.state = .writing → SinceOpened calls b.pendingBytes) ∧
      (b.state = .empty → ∀ answer ∈ ran.1, published? answer = none) ∧
      (b.state = .complete → ∃ answer ∈ ran.1, published? answer ≠ none) ∧
      b.read = (ran.1.filterMap published?).getLast? ∧
      (b.lastModified.isSome = true ↔ b.read.isSome = true) ∧
      ∀ c : BufferCall, let next := b.call c
        (∀ value, next.1 = .ok (some value) → SinceOpened (calls ++ [c]) value ∧
          next.2.read = some value ∧ next.2.lastModified = c.time?) ∧
        (published? next.1 = none →
          next.2.read = b.read ∧ next.2.lastModified = b.lastModified) ∧
        (next.1 = .error (.noActiveWrite b.path) ↔
          c.needsTransfer = true ∧ b.state ≠ .writing) ∧
        (∀ path', next.1 = .error (.noActiveWrite path') → next.2 = b) ∧
        ∀ path' expected expectedCount number count,
          next.1 = .error (.outOfSequence path' expected expectedCount number count) →
            next.2 = (b.call .abandon).2 := by
  have hgathers := gathers_run path calls
  have hread := read_run path calls
  have hnone := read_eq_none_iff path calls
  generalize runOps call (fresh path) calls = ran at hgathers hread hnone
  obtain ⟨answers, b⟩ := ran
  dsimp only at hgathers hread hnone ⊢
  refine ⟨fun hstate => ?_, fun hstate => ?_, fun hstate => ?_, fun hstate => ?_, hread, ?_,
    fun c => ?_⟩
  · rw [ne_eq, state_eq_writing_iff, Option.not_isSome_iff_eq_none] at hstate
    rw [pendingBytes, hstate]
    rfl
  · obtain ⟨t, ht⟩ := Option.isSome_iff_exists.mp (state_eq_writing_iff.mp hstate)
    rw [pendingBytes, ht]
    exact hgathers t ht
  · exact hnone.mp (state_eq_empty_iff.mp hstate).2
  · have hsome := mt hnone.mpr (state_eq_complete_iff.mp hstate).2
    simpa only [not_forall, exists_prop] using hsome
  · rw [lastModified, read, Option.isSome_map, Option.isSome_map]
  · have hway := callWay_call b c
    refine ⟨fun value hanswer => ?_, fun hanswer => ?_, ?_, fun _ => hway.unchanged,
      fun _ _ _ _ _ => hway.abandoned⟩
    · obtain ⟨hvalue, hopen, hnow⟩ := hway.published hanswer
      rw [hvalue] at hnow ⊢
      exact ⟨hgathers.sinceOpened hopen, hnow⟩
    · rw [read, lastModified, hway.kept hanswer]
      exact ⟨rfl, rfl⟩
    · rw [refused_iff, ne_eq, state_eq_writing_iff, Option.not_isSome_iff_eq_none]

/-- A packet out of sequence breaks a transfer that was opened by hand, and what was
published before stays. -/
example : (runOps call (fresh .root)
    [.packet ⟨1, 0, 1, [1]⟩, .begin, .write [2], .packet ⟨2, 1, 2, [3]⟩, .write [4]]) =
      ([.ok (some [1]), .ok none, .ok none, .error (.outOfSequence .root 0 0 1 2),
        .error (.noActiveWrite .root)], ⟨.root, none, some ⟨[1], 1⟩⟩) := by
  rfl

end Buffer

end ZoneBus
