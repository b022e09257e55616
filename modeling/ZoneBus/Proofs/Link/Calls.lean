import ZoneBus.Proofs.Link.CallMoves
import ZoneBus.Session.Moves

/-!
# The calls of a link keep their kind

A call opens, closes, sends or receives from its first move to its last, and
what one call does leaves every other call where it was.  So a task that began
to send knows, as long as its call is under way, that it is still sending; in
particular the call never ends with bytes that were read.

## Main definitions

* `LinkKind`, `LinkPhase.kind` — what a call does, read off any of its phases.
* `Link.Keeps` — going from one link to another, no call changes its kind.
* `Link.Sends` — a call sends as long as it is under way.

## Main results

* `Link.keeps_of_mem_moves` — a move of a call keeps all kinds.
* `Link.Deed.reading_of_received` — only a call that reads ends with bytes.
* `Link.not_received_of_sending` — a call that sends does not end with bytes.
-/

namespace ZoneBus

/-- What a call of a link does. -/
inductive LinkKind where
  /-- It opens the link. -/
  | opening
  /-- It closes the link. -/
  | closing
  /-- It writes. -/
  | sending
  /-- It reads. -/
  | receiving
deriving DecidableEq, Repr

/-- What is asked for, without the bytes. -/
def LinkCall.kind : LinkCall → LinkKind
  | .open => .opening
  | .close => .closing
  | .send _ => .sending
  | .receive _ => .receiving

/-- What a call in a phase does. -/
def LinkPhase.kind : LinkPhase → LinkKind
  | .begun call => call.kind
  | .openReader => .opening
  | .openWriter => .opening
  | .connecting => .opening
  | .closeWriter => .closing
  | .shuttingDown => .closing
  | .closeReader => .closing
  | .sendTurn _ => .sending
  | .writing _ => .sending
  | .receiveTurn _ => .receiving
  | .reading _ => .receiving

namespace Session

/-- The end of a call that becomes known is among what becomes known. -/
theorem finished_of_resultOf? {c : CallId} {result : LinkResult} : ∀ {events : List LinkEvent},
    resultOf? c events = some result → .finished c result ∈ events := by
  intro events
  induction events with
  | nil => intro h; cases h
  | cons e events ih =>
    intro h
    cases e with
    | finished d result' =>
      rw [resultOf?] at h
      split at h
      · next he =>
        subst he
        rw [Option.some.inj h]
        exact List.mem_cons_self
      · exact List.mem_cons_of_mem _ (ih h)
    | _ => exact List.mem_cons_of_mem _ (ih h)

end Session

namespace Link

/-- Every call of the later link that was numbered in the earlier one was under
way there, and did the same. -/
def Keeps (l l' : Link) : Prop :=
  l.nextCall ≤ l'.nextCall ∧
    ∀ c < l.nextCall, ∀ phase', l'.calls.find? c = some phase' →
      ∃ phase, l.calls.find? c = some phase ∧ phase.kind = phase'.kind

theorem Keeps.refl (l : Link) : l.Keeps l := ⟨Nat.le_refl _, fun _ _ phase h => ⟨phase, h, rfl⟩⟩

/-- The calls decide: nothing else of a link matters. -/
theorem keeps_of_calls_eq {l l' : Link} (hn : l'.nextCall = l.nextCall) (hc : l'.calls = l.calls) :
    l.Keeps l' := by
  refine ⟨Nat.le_of_eq hn.symm, fun c _ phase h => ?_⟩
  rw [hc] at h
  exact ⟨phase, h, rfl⟩

theorem keeps_begin (l : Link) (call : LinkCall) : l.Keeps (l.begin call).2 := by
  refine ⟨Nat.le_succ _, fun c hc phase h => ?_⟩
  have hne : l.nextCall ≠ c := Nat.ne_of_gt hc
  rw [begin, Directory.find?_put, if_neg hne] at h
  exact ⟨phase, h, rfl⟩

theorem find?_begin (l : Link) (call : LinkCall) :
    (l.begin call).2.calls.find? l.nextCall = some (.begun call) := by
  rw [begin, Directory.find?_put, if_pos rfl]

theorem keeps_of_erase {l l' : Link} {c : CallId} (hn : l'.nextCall = l.nextCall)
    (hc : l'.calls = l.calls.erase c) : l.Keeps l' := by
  refine ⟨Nat.le_of_eq hn.symm, fun d _ phase h => ?_⟩
  rw [hc, Directory.find?_erase] at h
  by_cases hd : c = d
  · rw [if_pos hd] at h; cases h
  · rw [if_neg hd] at h; exact ⟨phase, h, rfl⟩

theorem keeps_abort (l : Link) (c : CallId) : l.Keeps (l.abort c) := keeps_of_erase rfl rfl

theorem keeps_of_put {l l' : Link} {c : CallId} {phase phase' : LinkPhase}
    (hf : l.calls.find? c = some phase) (hn : l'.nextCall = l.nextCall)
    (hc : l'.calls = l.calls.put c phase') (hk : phase.kind = phase'.kind) : l.Keeps l' := by
  refine ⟨Nat.le_of_eq hn.symm, fun d _ phase'' h => ?_⟩
  rw [hc, Directory.find?_put] at h
  by_cases hd : c = d
  · subst hd
    rw [if_pos rfl, Option.some.injEq] at h
    subst h
    exact ⟨phase, hf, hk⟩
  · rw [if_neg hd] at h; exact ⟨phase'', h, rfl⟩

/-- A call was begun, and as long as it is under way it sends. -/
def Sends (l : Link) (c : CallId) : Prop :=
  c < l.nextCall ∧ ∀ phase, l.calls.find? c = some phase → phase.kind = .sending

theorem Sends.of_keeps {l l' : Link} {c : CallId} (h : l.Sends c) (hk : l.Keeps l') :
    l'.Sends c := by
  refine ⟨Nat.lt_of_lt_of_le h.1 hk.1, fun phase' hf => ?_⟩
  obtain ⟨phase, hphase, he⟩ := hk.2 c h.1 phase' hf
  exact he.symm.trans (h.2 phase hphase)

theorem sends_begin (l : Link) (bytes : Bytes) : (l.begin (.send bytes)).2.Sends l.nextCall := by
  refine ⟨Nat.lt_succ_self _, fun phase hf => ?_⟩
  rw [find?_begin, Option.some.injEq] at hf
  rw [← hf]
  rfl

/-! ### Moves -/

variable {l l' : Link} {c : CallId} {phase : LinkPhase} {events : List LinkEvent}

/-- A call that goes on does the same. -/
theorem GoesOn.kind_eq {phase' : LinkPhase} (h : l.GoesOn phase phase') :
    phase.kind = phase'.kind := by
  cases h <;> rfl

/-- **A move of a call keeps all kinds.** -/
theorem keeps_of_mem_moves (h : (l', events) ∈ l.moves c) : l.Keeps l' := by
  obtain ⟨phase, hf, hd⟩ := exists_deed h
  rcases hd.calls_cases with ⟨phase', hon, hcalls⟩ | hcalls
  · exact keeps_of_put hf hd.nextCall_eq hcalls hon.kind_eq
  · exact keeps_of_erase hd.nextCall_eq hcalls

/-- Only a call that reads ends with bytes. -/
theorem Deed.reading_of_received {bytes : Bytes} (hd : Deed l c phase l' events)
    (h : .finished c (.received bytes) ∈ events) : ∃ most, phase = .reading most := by
  have not_noted := finished_notMem_noted (l := l) (c := c) c (.received bytes)
  cases hd with
  | writes line _ => simp [not_noted line] at h
  | writesPartly line _ => exact absurd h (not_noted line)
  | writeFails line _ _ hp => simp [not_noted line, finished_notMem_published hp] at h
  | readFails _ _ _ _ _ hp => simp [finished_notMem_published hp] at h
  | reads => exact ⟨_, rfl⟩
  | _ => simp at h

/-- **A call that sends does not end with bytes.** -/
theorem not_received_of_sending {bytes : Bytes} (hs : l.Sends c) (h : (l', events) ∈ l.moves c) :
    Session.resultOf? c events ≠ some (.received bytes) := by
  intro hres
  obtain ⟨phase, hf, hd⟩ := exists_deed h
  obtain ⟨most, rfl⟩ := hd.reading_of_received (Session.finished_of_resultOf? hres)
  cases hs.2 _ hf

end Link

end ZoneBus
