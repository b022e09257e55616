import ZoneBus.Proofs.Session.Ledger
import ZoneBus.Proofs.Session.Overlap

/-!
# Every request ends once

A request that was accepted is open until it ends, and it ends once, by whichever
route comes first: a reply, being written, a withdrawal, running out of attempts,
a queue that refuses it, or the end of the run.  A stop ends what is open with a
cancellation, a fault with its own error, and once either is through nothing is
left in the table or in the queue.

## Main definitions

* `Session.endingOf?` — how a move that takes the installed run away ends what is open.

## Main results

* `Session.ended_of_taken` — taking the installed run away ends what is open, and how.
* `Session.requests_end_once` — **the whole account.**
-/

namespace ZoneBus

namespace Session

/-- The failure that a task ends every open request with when it takes the installed
run away. -/
def endingOf? (s : Session) (t : TaskId) : Option SessionError :=
  match t with
  | .control i => if s.controls.find? i = some .stopTurn then some .cancelled else none
  | t =>
    match s.teardownOf? t with
    | some (.locking cause) => some (.connection cause)
    | _ => none

theorem endingOf?_of_locking {s : Session} {t : TaskId} {cause : LinkError}
    (h : s.teardownOf? t = some (.locking cause)) : s.endingOf? t = some (.connection cause) := by
  cases t with
  | control i => cases h
  | reader r => simp only [endingOf?, h]
  | writer r => simp only [endingOf?, h]
  | scanner r => cases h
  | caller i => cases h

theorem mem_takenDown {s : Session} {t : TaskId} {r : RunId} {error : SessionError}
    {id : RequestId} (h : s.pending.contains id = true) :
    (id, .failure error) ∈ (s.takenDown t r error).delivered := by
  rw [takenDown_eq]
  refine List.mem_append_right _ (List.mem_map.mpr ⟨id, ?_, rfl⟩)
  exact Directory.contains_iff_mem_keys.mp h

/-- Only a stop and a fault take the installed run away, and each ends what is open
with its own failure. -/
theorem taken_of_governs {s s' : Session} {t : TaskId} (hg : Governs s (.move t) s')
    (hr : s.running ≠ none) (hr' : s'.running = none) :
    ∃ error, s.endingOf? t = some error ∧
      ∀ id, s.pending.contains id = true → (id, .failure error) ∈ s'.delivered := by
  cases hg with
  | refuses => exact absurd hr' hr
  | startBegins _ _ hnone => exact absurd hnone hr
  | startFails => rw [enter_fst] at hr'; exact absurd hr' hr
  | spawns => exact absurd hr' hr
  | startEnds => rw [enter_fst] at hr'; cases hr'
  | stopBegins hi =>
    refine ⟨.cancelled, ?_, fun id hid => mem_takenDown hid⟩
    rw [endingOf?, if_pos hi]
  | stopJoins => exact absurd hr' hr
  | stopEnds => rw [enter_fst] at hr'; exact absurd hr' hr
  | @faultBegins t cause r ht =>
    refine ⟨.connection cause, endingOf?_of_locking ht, fun id hid => ?_⟩
    obtain ⟨runs, hput⟩ := putTeardown_eq (s.takenDown t r (.connection cause)) t
      (.closing s.link.nextCall)
    rw [hput]
    exact mem_takenDown hid
  | faultLate _ _ hnone => exact absurd hnone hr
  | @faultEnds t =>
    obtain ⟨runs, hexit⟩ := exitTask_eq (s.enter .stopped).1 t
    rw [hexit, enter_fst] at hr'
    exact absurd hr' hr

/-- **Taking the installed run away ends every open request with the failure of the
stop or of the fault.** -/
theorem ended_of_taken {s s' : Session} {t : TaskId} (hl : s.Ledger)
    (ho : Happens s (.move t) s') (hr : s.running ≠ none) (hr' : s'.running = none) :
    ∃ error, s.endingOf? t = some error ∧
      ∀ id, s.pending.contains id = true → s'.EndedWith id (.failure error) := by
  have hl' := (keepsBooks_happens ho).1 hl
  rcases happens_cases ho with ⟨r, run, frame, _, hf, _, rfl⟩ | ⟨_, hw | ⟨link, _, hg⟩⟩
  · exact absurd ((sameLifecycle_noteWritten hf frame).running.symm.trans hr') hr
  · exact absurd ((sameLifecycle_worked hw).running.symm.trans hr') hr
  · obtain ⟨error, he, hall⟩ := taken_of_governs hg hr hr'
    refine ⟨error, ?_, fun id hid => hl'.endedWith_of_mem (hall id hid)⟩
    rw [← he]
    cases t <;> rfl

/-- A send that is accepted gets the next number. -/
theorem send_ok {s : Session} {target : Address} {message : Message} {priority : Priority}
    {id : RequestId} (h : (s.send target message priority).1 = .ok id) :
    id = s.requestIds.given + 1 ∧
      (s.send target message priority).2.requestIds.given = s.requestIds.given + 1 := by
  unfold send at h ⊢
  by_cases hs : s.state = .started
  · rw [if_pos hs] at h ⊢
    rcases s.enqueue_cases target message priority with
      ⟨e, he⟩ | ⟨bytes, _, ⟨queue, _, he⟩ | ⟨_, he⟩⟩
    · rw [he] at h; cases h
    · rw [he] at h ⊢
      exact ⟨(Except.ok.inj h).symm, rfl⟩
    · rw [he] at h ⊢
      exact ⟨(Except.ok.inj h).symm, rfl⟩
  · rw [if_neg hs] at h; cases h

/-- What is accepted is open or has ended once, ever after. -/
theorem Ledger.account_of_history {s s' : Session} {past : List (Session × Occurrence)} {id : Nat}
    (hl : s.Ledger) (h1 : 1 ≤ id) (hid : id ≤ s.requestIds.given) (h : History s past s') :
    s'.Open id ∨ ∃ outcome, s'.EndedWith id outcome := by
  obtain ⟨hkeep, hgiven, _⟩ := h.keepsBooks
  exact (hkeep hl).open_or_ended h1 (Nat.le_trans hid hgiven)

/-- **Every request that was accepted is open or has ended once.**  In a history in
which no start overlaps a teardown,

* every number that was given out belongs to a request that is registered, with
  nothing delivered, or that is not, with one outcome delivered;
* an outcome that was delivered stays the only one;
* a message that is refused leaves the session as it is, and one that is accepted gets
  the next number and is accounted for ever after;
* a session that publishes that it is stopped has nothing registered and nothing queued;
* a move that takes the installed run away ends every request that was registered
  with a cancellation when it is a stop's, and with the connection error of the fault
  when it is a faulting task's. -/
theorem requests_end_once {config : SessionConfig} {link : Link} {s : Session}
    {past : List (Session × Occurrence)} (h : History (fresh config link) past s)
    (hcalm : ∀ v ∈ past.map Prod.fst, v.overlaps = false) :
    (∀ id, 1 ≤ id → id ≤ s.requestIds.given →
      s.Open id ∨ ∃ outcome, s.EndedWith id outcome) ∧
    (∀ id outcome, s.EndedWith id outcome →
      ∀ later s', History s later s' → s'.EndedWith id outcome) ∧
    (∀ target message priority error, (s.send target message priority).1 = .error error →
      (s.send target message priority).2 = s) ∧
    (∀ target message priority id, (s.send target message priority).1 = .ok id →
      id = s.requestIds.given + 1 ∧
        ∀ later s', History (s.send target message priority).2 later s' →
          s'.Open id ∨ ∃ outcome, s'.EndedWith id outcome) ∧
    (s.state = .stopped → s.pending.size = 0 ∧ s.queue.size = 0) ∧
    (∀ t s' notices, (s', notices) ∈ s.moves t → s.running ≠ none → s'.running = none →
      ∃ error, s.endingOf? t = some error ∧ ∀ id, s.pending.contains id = true →
        ∀ later s'', History s' later s'' → s''.EndedWith id (.failure error)) := by
  have hl := ledger_of_history h
  refine ⟨fun id h1 hid => hl.open_or_ended h1 hid,
    fun id outcome he later s' h' => he.of_history hl h',
    fun target message priority error he => send_error he, ?_, ?_, ?_⟩
  · intro target message priority id hok
    obtain ⟨hid, hgiven⟩ := send_ok hok
    refine ⟨hid, fun later s' h' => ?_⟩
    have hsend : Happens s (.input (.send target message priority))
        (s.send target message priority).2 := .input _
    refine ((keepsBooks_happens hsend).1 hl).account_of_history ?_ ?_ h'
    · rw [hid]; exact Nat.le_add_left 1 _
    · exact Nat.le_of_eq (hid.trans hgiven.symm)
  · intro hs
    have hq := quiet_of_stopped (orderly_of_history h hcalm) (lifecycle_of_history h) hs
    have hqueue := hq.queued
    rw [SendQueue.toList, List.append_eq_nil_iff] at hqueue
    refine ⟨?_, ?_⟩
    · rw [PendingTable.size, Directory.size, hq.registered]; rfl
    · rw [SendQueue.size, hqueue.1, hqueue.2]; rfl
  · intro t s' notices hm hr hr'
    obtain ⟨error, he, hall⟩ := ended_of_taken hl (.move hm) hr hr'
    have hl' := (keepsBooks_happens (.move hm)).1 hl
    exact ⟨error, he, fun id hid later s'' h' => (hall id hid).of_history hl' h'⟩

/-- An event and a request for a value are sent; the event is withdrawn, and a stop
goes all the way through. -/
def stopWithOpenRequest : List Cue :=
  firstStart ++
    [.input (.send (.controllerAt 1) (.event (.plain .root 7 .low)) .low),
      .input (.send (.controllerAt 1) (.requestData (.stored .root)) .high),
      .input (.cancel 1), .input .stop, .move (.control 2) 0,
      .move (.reader 1) 0, .move (.scanner 1) 0, .move (.writer 1) 0] ++
    List.replicate 5 (.move (.control 2) 0)

theorem requests_end_once_stopWithOpenRequest :
    ∃ past s, History (fresh {} (.fresh "" none [])) past s ∧ s.state = .stopped ∧
      (∃ outcome, s.EndedWith 1 outcome) ∧ (∃ outcome, s.EndedWith 2 outcome) ∧
      s.pending.size = 0 ∧ s.queue.size = 0 := by
  obtain ⟨past, s, h, hs, hgiven, hcalm⟩ := exists_history (fresh {} (.fresh "" none []))
    stopWithOpenRequest (fun past s => s.state = .stopped ∧ s.requestIds.given = 2 ∧
      ∀ v ∈ past.map Prod.fst, v.overlaps = false) (by decide +kernel)
  obtain ⟨haccount, _, _, _, hstopped, _⟩ := requests_end_once h hcalm
  obtain ⟨hp, hq⟩ := hstopped hs
  -- nothing is registered any more, so both requests have ended
  have ended : ∀ id, 1 ≤ id → id ≤ s.requestIds.given → ∃ outcome, s.EndedWith id outcome := by
    intro id h1 hid
    refine (haccount id h1 hid).resolve_left fun ho => ?_
    have hm := Directory.contains_iff_mem_keys.mp ho.1
    rw [PendingTable.size, Directory.size, List.length_eq_zero_iff] at hp
    rw [Directory.keys, hp] at hm
    cases hm
  exact ⟨past, s, h, hs, ended 1 (by decide) (hgiven ▸ by decide),
    ended 2 (by decide) (Nat.le_of_eq hgiven.symm), hp, hq⟩

end Session

end ZoneBus
