import ZoneBus.Proofs.SendQueue.Arrivals

/-!
# Nobody sleeps while there is something to take

A send queue is used by several threads at once.  What each of them does is made of steps,
and the steps of others come in between.  Adding an item is one step, and waking somebody is
another; closing the queue is followed by two wake-ups.  The one who waits for an item makes
ready to be woken, looks at the queue, and goes to sleep only after that, unless he was woken
meanwhile; whenever he is woken, he begins anew.  A wake-up that found nobody waiting may be
old by the time it is used, or stand for several; all it does is to make him look once more.

So he never sleeps while there is something to take or the queue is closed, as long as
everybody has woken whom he was to wake, and he comes back only with an item or because he
found the queue closed.

## Main definitions

* `SendQueue.add`, `SendQueue.clear` — a push and a close before anybody is woken.
* `SharedQueue`, `QueueAct`, `SharedQueue.perform` — a queue among threads, and their steps.
* `QueueAct.op?`, `Arrivals.of` — the operation that a step is on the list of arrivals, and
  the list that some steps come to.
* `SharedQueue.Asleep`, `SharedQueue.Stocks` — nothing will make the consumer look again; the
  queue holds a list, and whoever sleeps has nothing to take.
* `QueueOp.acts`, `SendQueue.attend`, `SharedQueue.AtRest` — the steps of an operation that is
  left alone, what they come to, and that nobody is in the middle of anything after them.

## Main results

* `SharedQueue.stocks_perform`, `stocks_run` — every step keeps it so.
* `SharedQueue.run_turn` — the consumer, left alone, does what `SendQueue.poll` does.
* `SharedQueue.run_acts`, `run_flatMap` — operations that are left alone are such steps.
* `SharedQueue.nobody_oversleeps` — **no wake-up is lost.**
-/

namespace ZoneBus

variable {α : Type}

/-! ### Pushing and closing, before anybody is woken -/

namespace SendQueue

/-- Adds an item behind those of its priority, without waking anybody; nothing when the queue
is closed. -/
def add (q : SendQueue α) (priority : Priority) (a : α) : Option (SendQueue α) :=
  if q.closed then none
  else
    match priority with
    | .high => some { q with high := q.high ++ [a] }
    | .low => some { q with low := q.low ++ [a] }

/-- Drops all items and refuses new ones, without waking anybody. -/
def clear (q : SendQueue α) : SendQueue α := { q with high := [], low := [], closed := true }

/-- A push adds the item, and wakes somebody. -/
theorem push_eq (q : SendQueue α) (priority : Priority) (a : α) :
    q.push priority a = (q.add priority a).map wakeOne := by
  rw [push.eq_def, add.eq_def]
  cases q.closed with
  | true => rfl
  | false => cases priority <;> rfl

/-- An item is refused exactly when the queue is closed. -/
theorem add_eq_none_iff {q : SendQueue α} {priority : Priority} {a : α} :
    q.add priority a = none ↔ q.closed = true := by
  rw [← push_eq_none_iff, push_eq, Option.map_eq_none_iff]

/-- Which items there are decides whether one is taken. -/
theorem tryPop_of_eq {q q' : SendQueue α} (h : q.tryPop = none) (hhigh : q'.high = q.high)
    (hlow : q'.low = q.low) : q'.tryPop = none := by
  rw [tryPop] at h ⊢
  rw [hhigh, hlow]
  cases hh : q.high with
  | cons a rest =>
    rw [hh] at h
    cases h
  | nil =>
    cases hl : q.low with
    | cons a rest =>
      rw [hh, hl] at h
      cases h
    | nil => rfl

theorem waiter_wakeAll (q : SendQueue α) : q.wakeAll.waiter ≠ .waiting := by
  unfold wakeAll
  cases hw : q.waiter <;> simp [hw]

/-- The same queue with nobody waiting. -/
def unattended (q : SendQueue α) : SendQueue α := { q with waiter := .absent }

/-- Who waits makes no difference to what is added, -/
theorem add_unattended (q : SendQueue α) (priority : Priority) (a : α) :
    q.unattended.add priority a = (q.add priority a).map unattended := by
  obtain ⟨high, low, closed, _, _⟩ := q
  cases closed <;> cases priority <;> rfl

/-- to what is taken, -/
theorem tryPop_unattended (q : SendQueue α) :
    q.unattended.tryPop = q.tryPop.map fun e => (e.1, e.2.unattended) := by
  obtain ⟨high, low, _, _, _⟩ := q
  cases high <;> cases low <;> rfl

/-- and to what is found. -/
theorem poll_unattended (q : SendQueue α) : q.unattended.poll = q.poll := by
  obtain ⟨high, low, closed, _, _⟩ := q
  cases closed <;> cases high <;> cases low <;> rfl

/-- Adding an item wakes nobody. -/
theorem waiter_of_add {q q' : SendQueue α} {priority : Priority} {a : α}
    (h : q.add priority a = some q') : q'.waiter = q.waiter := by
  rw [add.eq_def] at h
  split at h
  · cases h
  · cases priority with
    | high =>
      obtain rfl := Option.some.inj h
      rfl
    | low =>
      obtain rfl := Option.some.inj h
      rfl

/-- Taking an item wakes nobody, and uses no wake-up. -/
theorem waiter_of_tryPop {q q' : SendQueue α} {a : α} (h : q.tryPop = some (a, q')) :
    q'.waiter = q.waiter ∧ q'.permit = q.permit := by
  rw [tryPop] at h
  split at h
  · obtain ⟨_, rfl⟩ := Prod.mk.inj (Option.some.inj h)
    exact ⟨rfl, rfl⟩
  · obtain ⟨_, rfl⟩ := Prod.mk.inj (Option.some.inj h)
    exact ⟨rfl, rfl⟩
  · cases h

end SendQueue

/-! ### Steps of threads -/

/-- A wake-up. -/
inductive Ring where
  /-- Wakes one who waits, or is kept. -/
  | one
  /-- Wakes everybody who waits or has made ready to. -/
  | all
deriving DecidableEq

/-- How far the consumer has come with a look at the queue.  He has made ready to be woken
before it, when everybody had been woken so many times. -/
inductive Look where
  /-- He is about to look. -/
  | ready (rounds : Nat)
  /-- He has looked and found nothing. -/
  | empty (rounds : Nat)
deriving DecidableEq

/-- How often everybody had been woken when he made ready. -/
def Look.rounds : Look → Nat
  | ready rounds => rounds
  | empty rounds => rounds

/-- A send queue among threads, one of which takes items. -/
structure SharedQueue (α : Type) where
  /-- The items, and what the wake-ups have come to. -/
  queue : SendQueue α
  /-- How often everybody was woken. -/
  rounds : Nat
  /-- How far the consumer has come with a look at the queue. -/
  look : Option Look
  /-- The wake-ups that are still to be made, by every operation under way. -/
  owed : List (List Ring)

/-- A step of a thread. -/
inductive QueueAct (α : Type) where
  /-- An item is added, or refused. -/
  | push (priority : Priority) (a : α)
  /-- An item is taken by somebody who does not wait. -/
  | tryPop
  /-- All items are dropped and new ones refused. -/
  | close
  /-- New items are accepted again. -/
  | reopen
  /-- The next wake-up of an operation under way. -/
  | ring (i : Nat)
  /-- The consumer asks for an item, and makes ready to be woken. -/
  | pop
  /-- He looks at the queue. -/
  | look
  /-- He goes to sleep, unless he was woken meanwhile. -/
  | wait
  /-- He was woken while he slept, and makes ready to be woken again. -/
  | rouse
  /-- He gives up.  A wake-up that he was given may be kept. -/
  | leave (kept : Bool)

namespace SharedQueue

/-- A queue that nobody has used. -/
def fresh : SharedQueue α := ⟨.empty, 0, none, []⟩

/-- An operation under way has made the first of its wake-ups. -/
def paid (owed : List (List Ring)) (i : Nat) (rest : List Ring) : List (List Ring) :=
  if rest.isEmpty then owed.eraseIdx i else owed.set i rest

/-- The consumer makes ready to be woken. -/
def makeReady (s : SharedQueue α) : SharedQueue α :=
  { s with queue := s.queue.unattended, look := some (.ready s.rounds) }

/-- What is answered to a step, and the queue after it.  Whoever cannot take a step does
nothing. -/
def perform (s : SharedQueue α) : QueueAct α → QueueAnswer α × SharedQueue α
  | .push priority a =>
    match s.queue.add priority a with
    | some queue => (.pushed true, { s with queue := queue, owed := s.owed ++ [[.one]] })
    | none => (.pushed false, s)
  | .tryPop =>
    match s.queue.tryPop with
    | some (a, queue) => (.tried (some a), { s with queue := queue })
    | none => (.tried none, s)
  | .close =>
    (.closed s.queue.size, { s with queue := s.queue.clear, owed := s.owed ++ [[.all, .one]] })
  | .reopen => (.done, { s with queue := s.queue.reopen })
  | .ring i =>
    match s.owed[i]? with
    | some (.one :: rest) =>
      (.done, { s with queue := s.queue.wakeOne, owed := paid s.owed i rest })
    | some (.all :: rest) =>
      (.done, { s with
        queue := s.queue.wakeAll, rounds := s.rounds + 1, owed := paid s.owed i rest })
    | _ => (.done, s)
  | .pop =>
    match s.look, s.queue.waiter with
    | none, .absent => (.done, s.makeReady)
    | _, _ => (.done, s)
  | .look =>
    match s.look with
    | some (.ready rounds) =>
      if s.queue.closed then (.polled .closed, { s with look := none })
      else
        match s.queue.tryPop with
        | some (a, queue) => (.polled (.item a), { s with queue := queue, look := none })
        | none => (.polled .waiting, { s with look := some (.empty rounds) })
    | _ => (.done, s)
  | .wait =>
    match s.look with
    | some (.empty rounds) =>
      if s.queue.permit then
        (.done, { s with queue := { s.queue with permit := false } }.makeReady)
      else if s.rounds ≠ rounds then (.done, s.makeReady)
      else (.done, { s with queue := { s.queue with waiter := .waiting }, look := none })
    | _ => (.done, s)
  | .rouse =>
    match s.queue.waiter with
    | .woken => (.done, s.makeReady)
    | _ => (.done, s)
  | .leave kept =>
    (.done, { s with
      queue := { s.queue with
        waiter := .absent, permit := s.queue.permit || (kept && s.queue.waiter == .woken) }
      look := none })

end SharedQueue

/-! ### The list of arrivals -/

/-- The operation that a step is on the list of arrivals.  Waiting for an item is one when the
consumer looks at the queue. -/
def QueueAct.op? : QueueAct α × QueueAnswer α → Option (QueueOp α)
  | (.push priority a, _) => some (.push priority a)
  | (.tryPop, _) => some .tryPop
  | (.close, _) => some .close
  | (.reopen, _) => some .reopen
  | (.look, .polled _) => some .pop
  | _ => none

namespace Arrivals

/-- Waiting for an item is answered with what it has come to. -/
theorem exists_polled (l : Arrivals α) : ∃ outcome, (l.perform .pop).1 = .polled outcome := by
  rw [perform]
  split
  · exact ⟨_, rfl⟩
  · split <;> exact ⟨_, rfl⟩

/-- The list after a step with its answer. -/
def after (l : Arrivals α) (e : QueueAct α × QueueAnswer α) : Arrivals α :=
  match QueueAct.op? e with
  | some op => (l.perform op).2
  | none => l

/-- The list that steps and their answers come to. -/
def of (story : List (QueueAct α × QueueAnswer α)) : Arrivals α := story.foldl after empty

end Arrivals

namespace SharedQueue

variable {s : SharedQueue α} {l : Arrivals α}

/-- Nothing that has happened will make the consumer look again: he sleeps, or is about to
and was not woken since he made ready to be. -/
def Asleep (s : SharedQueue α) : Prop :=
  s.queue.waiter = .waiting ∨ (s.look = some (.empty s.rounds) ∧ s.queue.permit = false)

/-- The queue holds the items of a list, and whoever sleeps has nothing to take. -/
structure Stocks (s : SharedQueue α) (l : Arrivals α) : Prop where
  /-- The items are those of the list. -/
  holds : Arrivals.Holds s.queue.unattended l
  /-- The consumer does not look and sleep at once. -/
  alone : s.look ≠ none → s.queue.waiter = .absent
  /-- Everybody was woken as often as when he made ready, or more often. -/
  seen : ∀ look, s.look = some look → look.rounds ≤ s.rounds
  /-- Unless somebody is still to be woken, whoever sleeps has found the queue open and
  empty, and it is so still. -/
  asleep : s.Asleep → s.owed = [] → l.closed = false ∧ l.items = []

theorem stocks_fresh : (fresh : SharedQueue α).Stocks .empty where
  holds := Arrivals.holds_empty
  alone := fun _ => rfl
  seen := fun _ h => by cases h
  asleep := fun _ _ => ⟨rfl, rfl⟩

theorem Stocks.closed (h : s.Stocks l) : s.queue.closed = l.closed := h.holds.closed

/-- One who makes ready to be woken will look again. -/
theorem stocks_makeReady (h : Arrivals.Holds s.queue.unattended l) : s.makeReady.Stocks l where
  holds := h
  alone := fun _ => rfl
  seen := fun look hl => by
    obtain rfl := Option.some.inj hl
    exact Nat.le_refl _
  asleep := by
    rintro (hw | ⟨hl, _⟩)
    · cases hw
    · cases hl

/-- A wake-up leaves the items. -/
theorem holds_wakeOne {q : SendQueue α} (h : Arrivals.Holds q.unattended l) :
    Arrivals.Holds q.wakeOne.unattended l :=
  h.of_eq (SendQueue.high_wakeOne q) (SendQueue.low_wakeOne q) (SendQueue.closed_wakeOne q)
    (fun hw => by cases hw)

theorem holds_wakeAll {q : SendQueue α} (h : Arrivals.Holds q.unattended l) :
    Arrivals.Holds q.wakeAll.unattended l := by
  unfold SendQueue.wakeAll
  split <;> exact h.of_eq rfl rfl rfl (fun hw => by cases hw)

/-- An item that is added comes with a wake-up that is still to be made. -/
theorem stocks_push (h : s.Stocks l) (priority : Priority) (a : α) :
    (s.perform (.push priority a)).1 = (l.perform (.push priority a)).1 ∧
      (s.perform (.push priority a)).2.Stocks (l.perform (.push priority a)).2 := by
  rw [perform, Arrivals.perform]
  cases hadd : s.queue.add priority a with
  | none =>
    have hclosed : l.closed = true := h.closed ▸ SendQueue.add_eq_none_iff.mp hadd
    rw [if_pos hclosed]
    exact ⟨rfl, h⟩
  | some queue =>
    have hopen : l.closed = false := by
      refine Bool.eq_false_iff.mpr fun hclosed => ?_
      rw [SendQueue.add_eq_none_iff.mpr (h.closed.trans hclosed)] at hadd
      cases hadd
    obtain ⟨q', hpush, hq'⟩ := h.holds.push hopen priority a
    rw [SendQueue.push_eq, SendQueue.add_unattended, hadd] at hpush
    obtain rfl : queue.unattended.wakeOne = q' := Option.some.inj hpush
    rw [if_neg (by rw [hopen]; exact Bool.false_ne_true)]
    refine ⟨rfl, ?_, ?_, h.seen, ?_⟩
    · exact hq'.of_eq (SendQueue.high_wakeOne _).symm (SendQueue.low_wakeOne _).symm
        (SendQueue.closed_wakeOne _).symm (fun hw => by cases hw)
    · exact fun hl => (SendQueue.waiter_of_add hadd).trans (h.alone hl)
    · exact fun _ howed => absurd (List.append_eq_nil_iff.mp howed).2 (List.cons_ne_nil _ _)

/-- Nobody sleeps while there is an item for another to take. -/
theorem stocks_tryPop (h : s.Stocks l) :
    (s.perform .tryPop).1 = (l.perform .tryPop).1 ∧
      (s.perform .tryPop).2.Stocks (l.perform .tryPop).2 := by
  rw [perform, Arrivals.perform]
  obtain ⟨e, q', htake, hpop, hq'⟩ | ⟨htake, _, hpop⟩ := h.holds.tryPop
  · rw [SendQueue.tryPop_unattended, Option.map_eq_some_iff] at hpop
    obtain ⟨⟨a, queue⟩, hpop, heq⟩ := hpop
    obtain ⟨rfl, rfl⟩ := Prod.mk.inj heq
    obtain ⟨hwaiter, hpermit⟩ := SendQueue.waiter_of_tryPop hpop
    rw [hpop]
    dsimp only
    refine ⟨by rw [htake]; rfl, hq', fun hl => hwaiter.trans (h.alone hl), h.seen, ?_⟩
    intro hasleep howed
    -- he would have slept before, and there was nothing to take
    have hnil : l.items = [] := by
      refine (h.asleep ?_ howed).2
      unfold Asleep at hasleep ⊢
      dsimp only at hasleep
      rwa [hwaiter, hpermit] at hasleep
    rw [Arrivals.take, Arrivals.first?_eq_none_iff.mpr hnil] at htake
    cases htake
  · rw [SendQueue.tryPop_unattended, Option.map_eq_none_iff] at hpop
    rw [hpop, htake]
    exact ⟨rfl, h⟩

/-- Closing comes with two wake-ups that are still to be made. -/
theorem stocks_close (h : s.Stocks l) :
    (s.perform .close).1 = (l.perform .close).1 ∧
      (s.perform .close).2.Stocks (l.perform .close).2 := by
  refine ⟨congrArg QueueAnswer.closed h.holds.size, ?_, h.alone, h.seen, ?_⟩
  · exact ⟨rfl, rfl, rfl, fun _ => rfl, fun hw => by cases hw⟩
  · exact fun _ howed => absurd (List.append_eq_nil_iff.mp howed).2 (List.cons_ne_nil _ _)

/-- Whoever sleeps while the queue is opened again finds it empty. -/
theorem stocks_reopen (h : s.Stocks l) :
    (s.perform .reopen).2.Stocks (l.perform .reopen).2 where
  holds := h.holds.reopen
  alone := h.alone
  seen := h.seen
  asleep := fun hasleep howed => ⟨rfl, (h.asleep hasleep howed).2⟩

/-- **Nobody sleeps on after a wake-up**, whether he slept already or was about to. -/
theorem stocks_ring (h : s.Stocks l) (i : Nat) : (s.perform (.ring i)).2.Stocks l := by
  rw [perform]
  split
  · -- he who is about to sleep finds the wake-up that is kept
    refine ⟨holds_wakeOne h.holds, ?_, h.seen, ?_⟩
    · intro hl
      rw [SendQueue.wakeOne, h.alone hl]
    · rintro (hw | ⟨hl, hpermit⟩)
      · exact absurd hw (Arrivals.Holds.waiter_wakeOne _)
      · have hne : s.look ≠ none := fun hn => by
          rw [hn] at hl
          cases hl
        dsimp only at hpermit
        rw [SendQueue.wakeOne, h.alone hne] at hpermit
        cases hpermit
  · -- he finds that everybody was woken once more
    refine ⟨holds_wakeAll h.holds, ?_, ?_, ?_⟩
    · intro hl
      rw [SendQueue.wakeAll, h.alone hl]
      exact h.alone hl
    · exact fun look hl => Nat.le_succ_of_le (h.seen look hl)
    · rintro (hw | ⟨hl, _⟩)
      · exact absurd hw (SendQueue.waiter_wakeAll _)
      · exact absurd (h.seen _ hl) (Nat.not_succ_le_self _)
  · exact h

/-- The consumer takes what the list gives up, comes back when it is closed, and is about to
sleep only when there is nothing to take. -/
theorem stocks_look (h : s.Stocks l) {rounds : Nat} (hlook : s.look = some (.ready rounds)) :
    (s.perform .look).1 = (l.perform .pop).1 ∧
      (s.perform .look).2.Stocks (l.perform .pop).2 := by
  have habsent : s.queue.waiter = .absent := h.alone (by rw [hlook]; exact Option.some_ne_none _)
  have back : ∀ {queue : SendQueue α} {l' : Arrivals α}, queue.waiter = .absent →
      Arrivals.Holds queue.unattended l' →
      ({ s with queue := queue, look := none } : SharedQueue α).Stocks l' := by
    intro queue l' hw hq
    refine ⟨hq, fun hl => absurd rfl hl, (fun _ hl => by cases hl), ?_⟩
    rintro (hw' | ⟨hl, _⟩)
    · rw [hw] at hw'
      cases hw'
    · cases hl
  rw [perform, hlook, Arrivals.perform, h.closed]
  dsimp only
  cases hc : l.closed with
  | true => exact ⟨rfl, back habsent h.holds⟩
  | false =>
    obtain ⟨e, q', htake, hpop, hq'⟩ | ⟨htake, hnil, hpop⟩ := h.holds.tryPop
    · rw [SendQueue.tryPop_unattended, Option.map_eq_some_iff] at hpop
      obtain ⟨⟨a, queue⟩, hpop, heq⟩ := hpop
      obtain ⟨rfl, rfl⟩ := Prod.mk.inj heq
      simp only [hpop, htake]
      exact ⟨rfl, back ((SendQueue.waiter_of_tryPop hpop).1.trans habsent) hq'⟩
    · rw [SendQueue.tryPop_unattended, Option.map_eq_none_iff] at hpop
      simp only [hpop, htake]
      refine ⟨rfl, h.holds, fun _ => habsent, ?_, fun _ _ => ⟨hc, hnil⟩⟩
      intro look hl
      obtain rfl := Option.some.inj hl
      exact h.seen (.ready rounds) hlook

/-- He goes to sleep only if he was not woken since he made ready to be. -/
theorem stocks_wait (h : s.Stocks l) : (s.perform .wait).2.Stocks l := by
  rw [perform]
  split
  · next rounds hlook =>
    split
    · exact stocks_makeReady (h.holds.of_eq rfl rfl rfl (fun hw => by cases hw))
    · next hpermit =>
      split
      · exact stocks_makeReady h.holds
      · next hrounds =>
        have hasleep : s.Asleep :=
          Or.inr ⟨by rw [hlook, not_ne_iff.mp hrounds], Bool.eq_false_iff.mpr hpermit⟩
        exact ⟨h.holds, fun hl => absurd rfl hl, (fun _ hl => by cases hl),
          fun _ howed => h.asleep hasleep howed⟩
  · exact h

/-- A step on the list of arrivals is answered as the list answers it, and every step keeps
the items, and that whoever sleeps has nothing to take. -/
theorem stocks_perform (h : s.Stocks l) (act : QueueAct α) :
    (s.perform act).2.Stocks (l.after (act, (s.perform act).1)) := by
  cases act with
  | push priority a => exact (stocks_push h priority a).2
  | tryPop => exact (stocks_tryPop h).2
  | close => exact (stocks_close h).2
  | reopen => exact stocks_reopen h
  | ring i => exact stocks_ring h i
  | pop =>
    rw [perform]
    split
    · exact stocks_makeReady h.holds
    · exact h
  | look =>
    cases hlook : s.look with
    | none =>
      rw [perform, hlook]
      exact h
    | some phase =>
      cases phase with
      | ready rounds =>
        obtain ⟨hanswer, hafter⟩ := stocks_look h hlook
        obtain ⟨outcome, hpolled⟩ := l.exists_polled
        rw [hanswer, hpolled]
        exact hafter
      | empty rounds =>
        rw [perform, hlook]
        exact h
  | wait => exact stocks_wait h
  | rouse =>
    rw [perform]
    split
    · exact stocks_makeReady h.holds
    · exact h
  | leave kept =>
    refine ⟨h.holds.of_eq rfl rfl rfl (fun hw => by cases hw), fun hl => absurd rfl hl,
      (fun _ hl => by cases hl), ?_⟩
    rintro (hw | ⟨hl, _⟩)
    · cases hw
    · cases hl

/-- **Every step keeps it so**, whoever takes it. -/
theorem stocks_run (acts : List (QueueAct α)) : ∀ {s : SharedQueue α} {l : Arrivals α},
    s.Stocks l → (runOps perform s acts).2.Stocks
      ((answered perform s acts).foldl Arrivals.after l) := by
  induction acts with
  | nil => exact fun h => h
  | cons act acts ih => exact fun h => ih (stocks_perform h act)

/-- Only a look at the queue tells the consumer anything. -/
theorem polled_of_perform {act : QueueAct α} {outcome : Polled α}
    (h : (s.perform act).1 = .polled outcome) :
    act = .look ∧ ∃ rounds, s.look = some (.ready rounds) := by
  cases act with
  | look =>
    refine ⟨rfl, ?_⟩
    rw [perform] at h
    split at h
    · next rounds hlook => exact ⟨rounds, hlook⟩
    · cases h
  | push priority a =>
    rw [perform] at h
    split at h <;> cases h
  | tryPop =>
    rw [perform] at h
    split at h <;> cases h
  | close | reopen | leave => cases h
  | ring i =>
    rw [perform] at h
    split at h <;> cases h
  | pop =>
    rw [perform] at h
    split at h <;> cases h
  | rouse =>
    rw [perform] at h
    split at h <;> cases h
  | wait =>
    rw [perform] at h
    split at h
    · split at h
      · cases h
      · split at h <;> cases h
    · cases h

/-- What the consumer is told: the queue is closed when it is, the item that he takes is the
oldest of the highest priority there is, and he is about to sleep when there is nothing. -/
theorem told_of_perform (h : s.Stocks l) {act : QueueAct α} {outcome : Polled α}
    (htold : (s.perform act).1 = .polled outcome) :
    match outcome with
    | .closed => l.closed = true
    | .item a => ∃ p, l.closed = false ∧ Arrivals.first? l.items = some (p, a)
    | .waiting => l.closed = false ∧ l.items = [] := by
  obtain ⟨rfl, rounds, hlook⟩ := polled_of_perform htold
  rw [(stocks_look h hlook).1, Arrivals.perform] at htold
  split at htold
  · next hc =>
    obtain rfl := QueueAnswer.polled.inj htold
    exact hc
  · next hc =>
    rw [Bool.not_eq_true] at hc
    obtain ⟨e, hfirst, htake⟩ | htake := l.taken_or_none
    · rw [htake] at htold
      obtain rfl := QueueAnswer.polled.inj htold
      exact ⟨e.1, hc, hfirst⟩
    · rw [htake] at htold
      obtain rfl := QueueAnswer.polled.inj htold
      refine ⟨hc, Arrivals.first?_eq_none_iff.mp ?_⟩
      rw [Arrivals.take] at htake
      split at htake
      · cases htake
      · assumption

end SharedQueue

/-! ### One operation after another -/

/-- What a call that waits for an item comes back with. -/
def Polled.returned : Polled α → List (Option α)
  | .item a => [some a]
  | .closed => [none]
  | .waiting => []

/-- What such a call comes back with, when an answer is one to it. -/
def QueueAnswer.returned : QueueAnswer α → List (Option α)
  | .polled outcome => outcome.returned
  | _ => []

/-- The steps of the consumer from when he was woken until he comes back or sleeps again.  A
wake-up that was kept makes him look twice. -/
def turn : List (QueueAct α) := [.rouse, .look, .wait, .look, .wait]

/-- The steps of an operation. -/
def QueueOp.steps : QueueOp α → List (QueueAct α)
  | .push priority a => [.push priority a, .ring 0]
  | .tryPop => [.tryPop]
  | .pop => [.pop]
  | .leave => [.leave true]
  | .close => [.close, .ring 0, .ring 0]
  | .reopen => [.reopen]

/-- The steps of an operation that nobody comes in between of, and then of the consumer, who
goes on if he was woken. -/
def QueueOp.acts (op : QueueOp α) : List (QueueAct α) := op.steps ++ turn

namespace SendQueue

/-- An operation, and then the consumer goes on if he was woken. -/
def attend (q : SendQueue α) (op : QueueOp α) : (QueueAnswer α × Polled α) × SendQueue α :=
  (((q.perform op).1, (q.perform op).2.resume.1), (q.perform op).2.resume.2)

/-- The queue at which the consumer looks if an operation makes him look: he who asks for an
item looks at once. -/
def faced (q : SendQueue α) (op : QueueOp α) : SendQueue α :=
  match op with
  | .pop => q
  | op => (q.perform op).2

end SendQueue

/-- What the call of the consumer comes back with. -/
def returned (e : QueueAnswer α × Polled α) : List (Option α) := e.1.returned ++ e.2.returned

namespace SendQueue

variable {q : SendQueue α}

/-- He who looks does not stay woken. -/
theorem waiter_poll (q : SendQueue α) : q.poll.2.waiter ≠ .woken := by
  rw [poll]
  split
  · exact Waiter.noConfusion
  · split <;> exact Waiter.noConfusion

theorem waiter_resume (q : SendQueue α) : q.resume.2.waiter ≠ .woken := by
  rw [resume]
  split
  · exact waiter_poll q
  · assumption

/-- Nobody goes on who was not woken. -/
theorem resume_of_ne (h : q.waiter ≠ .woken) : q.resume = (.waiting, q) := by
  rw [resume]
  split
  · contradiction
  · rfl

theorem waiter_pop (q : SendQueue α) : q.pop.2.waiter ≠ .woken := by
  rw [pop]
  split
  · exact waiter_poll q
  · exact waiter_resume q

/-- He who asks for an item comes back at once, or sleeps. -/
theorem attend_pop (q : SendQueue α) :
    q.attend .pop = ((.polled q.pop.1, .waiting), q.pop.2) := by
  rw [attend, perform, resume_of_ne (waiter_pop q)]

/-- A look comes back with nothing only from a closed queue, else with the oldest item of the
highest priority there is. -/
theorem returned_poll (q : SendQueue α) : ∀ result ∈ q.poll.1.returned,
    if q.closed then result = none else ∃ a, result = some a ∧ q.toList.head? = some a := by
  intro result hresult
  rw [poll] at hresult
  cases hc : q.closed with
  | true =>
    rw [hc] at hresult
    exact List.mem_singleton.mp hresult
  | false =>
    rw [hc, if_neg Bool.false_ne_true, tryPop] at hresult
    cases hhigh : q.high with
    | cons a rest =>
      rw [hhigh] at hresult
      exact ⟨a, List.mem_singleton.mp hresult, by rw [toList, hhigh]; rfl⟩
    | nil =>
      cases hlow : q.low with
      | cons a rest =>
        rw [hhigh, hlow] at hresult
        exact ⟨a, List.mem_singleton.mp hresult, by rw [toList, hhigh, hlow]; rfl⟩
      | nil =>
        rw [hhigh, hlow] at hresult
        cases hresult

theorem returned_resume (q : SendQueue α) : ∀ result ∈ q.resume.1.returned,
    if q.closed then result = none else ∃ a, result = some a ∧ q.toList.head? = some a := by
  rw [resume]
  split
  · exact returned_poll q
  · exact fun result h => absurd h List.not_mem_nil

/-- What the call of the consumer comes back with by an operation. -/
theorem returned_attend (q : SendQueue α) (op : QueueOp α) :
    ∀ result ∈ returned (q.attend op).1,
      if (q.faced op).closed then result = none
      else ∃ a, result = some a ∧ (q.faced op).toList.head? = some a := by
  have later : ∀ answer : QueueAnswer α, answer.returned = [] → q.perform op =
      (answer, q.faced op) → ∀ result ∈ returned (q.attend op).1,
        if (q.faced op).closed then result = none
        else ∃ a, result = some a ∧ (q.faced op).toList.head? = some a := by
    intro answer hanswer hop result hresult
    rw [attend, hop, returned, hanswer] at hresult
    exact returned_resume _ result hresult
  cases op with
  | pop =>
    intro result hresult
    have hlook : ∀ result ∈ q.pop.1.returned, if q.closed then result = none
        else ∃ a, result = some a ∧ q.toList.head? = some a := by
      rw [pop]
      split
      · exact returned_poll q
      · exact returned_resume q
    have hreturned : returned (q.attend .pop).1 = q.pop.1.returned := by
      rw [attend_pop]
      exact List.append_nil _
    rw [hreturned] at hresult
    exact hlook result hresult
  | push priority a =>
    refine later (q.perform (.push priority a)).1 ?_ rfl
    rw [perform]
    split <;> rfl
  | tryPop =>
    refine later (q.perform .tryPop).1 ?_ rfl
    rw [perform]
    split <;> rfl
  | leave => exact later .done rfl rfl
  | close => exact later (.closed q.close.1) rfl rfl
  | reopen => exact later .done rfl rfl

end SendQueue

namespace SharedQueue

variable {s : SharedQueue α}

/-- What the call of the consumer comes back with in some steps. -/
def returns (s : SharedQueue α) (acts : List (QueueAct α)) : List (Option α) :=
  (runOps perform s acts).1.flatMap QueueAnswer.returned

theorem returns_cons (s : SharedQueue α) (act : QueueAct α) (acts : List (QueueAct α)) :
    s.returns (act :: acts) =
      (s.perform act).1.returned ++ (s.perform act).2.returns acts := List.flatMap_cons

theorem returns_append (s : SharedQueue α) (acts more : List (QueueAct α)) :
    s.returns (acts ++ more) = s.returns acts ++ (runOps perform s acts).2.returns more := by
  rw [returns, runOps_append]
  exact List.flatMap_append

/-- Nobody is in the middle of anything. -/
structure AtRest (s : SharedQueue α) : Prop where
  /-- The consumer does not look. -/
  look : s.look = none
  /-- He was not woken without going on. -/
  waiter : s.queue.waiter ≠ .woken
  /-- Everybody has woken whom he was to wake. -/
  owed : s.owed = []

/-- The consumer does nothing when he does not look at the queue. -/
theorem run_idle (h : s.look = none) (acts : List (QueueAct α))
    (hacts : ∀ act ∈ acts, act = .look ∨ act = .wait) :
    (runOps perform s acts).2 = s ∧ s.returns acts = [] := by
  induction acts with
  | nil => exact ⟨rfl, rfl⟩
  | cons act acts ih =>
    rw [List.forall_mem_cons] at hacts
    obtain ⟨hend, hreturns⟩ := ih hacts.2
    have hidle : s.perform act = (.done, s) := by
      rcases hacts.1 with rfl | rfl
      · rw [perform, h]
      · rw [perform, h]
    rw [runOps_cons, returns_cons, hidle]
    exact ⟨hend, hreturns⟩

/-- The consumer looks at a queue in which there is nothing. -/
theorem perform_look_empty (hlook : s.look = some (.ready s.rounds))
    (hc : s.queue.closed = false) (hpop : s.queue.tryPop = none) :
    s.perform .look = (.polled .waiting, { s with look := some (.empty s.rounds) }) := by
  simp [perform, hlook, hc, hpop]

/-- Then he goes to sleep when no wake-up was kept. -/
theorem run_sleep (hlook : s.look = some (.ready s.rounds)) (hc : s.queue.closed = false)
    (hpop : s.queue.tryPop = none) (hpermit : s.queue.permit = false) :
    (runOps perform s [.look, .wait]).2 =
        { s with queue := { s.queue with waiter := .waiting }, look := none } ∧
      s.returns [.look, .wait] = [] := by
  have hthen : ({ s with look := some (.empty s.rounds) } : SharedQueue α).perform .wait =
      (.done, { s with queue := { s.queue with waiter := .waiting }, look := none }) := by
    simp [perform, hpermit]
  rw [runOps_cons, runOps_cons, returns_cons, returns_cons, perform_look_empty hlook hc hpop,
    hthen]
  exact ⟨rfl, rfl⟩

/-- **The consumer, left alone, does what `poll` does**: a wake-up that was kept makes him
look once more, and is used up. -/
theorem run_ready (hwaiter : s.queue.waiter = .absent)
    (hlook : s.look = some (.ready s.rounds)) :
    (runOps perform s [.look, .wait, .look, .wait]).2 =
        { s with queue := s.queue.poll.2, look := none } ∧
      s.returns [.look, .wait, .look, .wait] = s.queue.poll.1.returned := by
  have hself : ∀ {q : SendQueue α}, q.waiter = .absent → { q with waiter := .absent } = q := by
    intro q h
    rw [← h]
  have hidle : ∀ act ∈ [QueueAct.wait (α := α), .look, .wait], act = .look ∨ act = .wait := by
    simp
  cases hc : s.queue.closed with
  | true =>
    have hpoll : s.queue.poll = (.closed, s.queue) := by
      rw [SendQueue.poll, if_pos hc, hself hwaiter]
    have hfirst : s.perform .look = (.polled .closed, { s with look := none }) := by
      simp [perform, hlook, hc]
    obtain ⟨hend, hreturns⟩ := run_idle (s := { s with look := none }) rfl _ hidle
    rw [runOps_cons, returns_cons, hfirst, hend, hreturns, hpoll]
    exact ⟨rfl, rfl⟩
  | false =>
    cases hpop : s.queue.tryPop with
    | some e =>
      obtain ⟨a, queue⟩ := e
      have hpoll : s.queue.poll = (.item a, queue) := by
        simp [SendQueue.poll, hc, hpop,
          hself ((SendQueue.waiter_of_tryPop hpop).1.trans hwaiter)]
      have hfirst : s.perform .look =
          (.polled (.item a), { s with queue := queue, look := none }) := by
        simp [perform, hlook, hc, hpop]
      obtain ⟨hend, hreturns⟩ :=
        run_idle (s := { s with queue := queue, look := none }) rfl _ hidle
      rw [runOps_cons, returns_cons, hfirst, hend, hreturns, hpoll]
      exact ⟨rfl, rfl⟩
    | none =>
      have hpoll : s.queue.poll =
          (.waiting, { s.queue with waiter := .waiting, permit := false }) := by
        simp [SendQueue.poll, hc, hpop]
      rw [hpoll]
      cases hpermit : s.queue.permit with
      | true =>
        -- he uses the wake-up, looks again, and now sleeps
        let ready : SharedQueue α := { s with
          queue := { s.queue with waiter := .absent, permit := false }
          look := some (.ready s.rounds) }
        have hthen : ({ s with look := some (.empty s.rounds) } : SharedQueue α).perform .wait =
            (.done, ready) := by
          simp [perform, hpermit, ready, makeReady, SendQueue.unattended]
        have hempty : ready.queue.tryPop = none := SendQueue.tryPop_of_eq hpop rfl rfl
        obtain ⟨hend, hreturns⟩ := run_sleep (s := ready) rfl hc hempty rfl
        rw [runOps_cons, runOps_cons, returns_cons, returns_cons,
          perform_look_empty hlook hc hpop, hthen, hend, hreturns]
        exact ⟨rfl, rfl⟩
      | false =>
        obtain ⟨hend, hreturns⟩ := run_sleep hlook hc hpop hpermit
        obtain ⟨hend', hreturns'⟩ := run_idle
          (s := { s with queue := { s.queue with waiter := .waiting }, look := none }) rfl
          [.look, .wait] (by simp)
        rw [show [QueueAct.look (α := α), .wait, .look, .wait] = [.look, .wait] ++ [.look, .wait]
          from rfl, returns_append, runOps_append, hreturns, hend, hreturns']
        refine ⟨hend'.trans ?_, rfl⟩
        simp [hpermit]

/-- When nobody comes in between, the consumer who was woken does what `resume` does. -/
theorem run_turn (h : s.look = none) :
    (runOps perform s turn).2 = { s with queue := s.queue.resume.2 } ∧
      s.returns turn = s.queue.resume.1.returned := by
  by_cases hw : s.queue.waiter = .woken
  · have hrouse : s.perform .rouse = (.done, s.makeReady) := by
      rw [perform, hw]
    have hresume : s.queue.resume = s.makeReady.queue.poll := by
      rw [SendQueue.resume, hw]
      exact (SendQueue.poll_unattended s.queue).symm
    obtain ⟨hend, hreturns⟩ := run_ready (s := s.makeReady) rfl rfl
    rw [turn, runOps_cons, returns_cons, hrouse, hresume, hend, hreturns]
    refine ⟨?_, rfl⟩
    simp [makeReady, h]
  · have hrouse : s.perform .rouse = (.done, s) := by
      rw [perform]
      split
      · contradiction
      · rfl
    obtain ⟨hend, hreturns⟩ := run_idle h [.look, .wait, .look, .wait] (by simp)
    rw [turn, runOps_cons, returns_cons, hrouse, hend, hreturns, SendQueue.resume_of_ne hw]
    exact ⟨rfl, rfl⟩

/-- The steps of an operation that does not ask for an item do what `SendQueue.perform`
does, and nobody comes back by them. -/
theorem run_steps (h : s.AtRest) {op : QueueOp α} (hop : op ≠ .pop) :
    (∃ rounds, (runOps perform s op.steps).2 = ⟨(s.queue.perform op).2, rounds, none, []⟩) ∧
      s.returns op.steps = [] ∧ (s.queue.perform op).1.returned = [] := by
  obtain ⟨queue, rounds, look, owed⟩ := s
  obtain ⟨rfl, hwaiter, rfl⟩ := h
  dsimp only at hwaiter
  cases op with
  | pop => exact absurd rfl hop
  | push priority a =>
    cases hadd : queue.add priority a with
    | none =>
      have hpush : queue.push priority a = none := by
        rw [SendQueue.push_eq, hadd]
        rfl
      simp [QueueOp.steps, runOps, returns, perform, SendQueue.perform, hadd, hpush,
        QueueAnswer.returned]
    | some queue' =>
      have hpush : queue.push priority a = some queue'.wakeOne := by
        rw [SendQueue.push_eq, hadd]
        rfl
      simp [QueueOp.steps, runOps, returns, perform, SendQueue.perform, hadd, hpush,
        QueueAnswer.returned, paid]
  | tryPop =>
    cases hpop : queue.tryPop with
    | none =>
      simp [QueueOp.steps, runOps, returns, perform, SendQueue.perform, hpop,
        QueueAnswer.returned]
    | some e =>
      simp [QueueOp.steps, runOps, returns, perform, SendQueue.perform, hpop,
        QueueAnswer.returned]
  | leave =>
    have hleave : queue.leave = { queue with waiter := .absent } := by
      rw [SendQueue.leave]
      split
      · contradiction
      · rfl
    simp [QueueOp.steps, runOps, returns, perform, SendQueue.perform, hleave, hwaiter,
      QueueAnswer.returned]
  | close =>
    simp [QueueOp.steps, runOps, returns, perform, SendQueue.perform, SendQueue.close, paid,
      SendQueue.clear, QueueAnswer.returned]
  | reopen =>
    simp [QueueOp.steps, runOps, returns, perform, SendQueue.perform, QueueAnswer.returned]

/-- The consumer who asks for an item, left alone, does what `SendQueue.pop` does. -/
theorem run_pop (h : s.AtRest) :
    (runOps perform s QueueOp.pop.acts).2 = { s with queue := s.queue.pop.2 } ∧
      s.returns QueueOp.pop.acts = s.queue.pop.1.returned := by
  cases hw : s.queue.waiter with
  | woken => exact absurd hw h.waiter
  | absent =>
    have hpop : s.perform .pop = (.done, s.makeReady) := by
      rw [perform, h.look, hw]
    have hrouse : s.makeReady.perform .rouse = (.done, s.makeReady) := rfl
    have hpoll : s.queue.pop = s.makeReady.queue.poll := by
      rw [SendQueue.pop, hw]
      exact (SendQueue.poll_unattended s.queue).symm
    obtain ⟨hend, hreturns⟩ := run_ready (s := s.makeReady) rfl rfl
    rw [QueueOp.acts, QueueOp.steps, turn, List.singleton_append, runOps_cons, runOps_cons,
      returns_cons, returns_cons, hpop, hrouse, hpoll, hend, hreturns]
    refine ⟨?_, rfl⟩
    simp [makeReady, h.look]
  | waiting =>
    have hpop : s.perform .pop = (.done, s) := by
      rw [perform, h.look, hw]
    have hresume : s.queue.pop = s.queue.resume := by
      rw [SendQueue.pop, hw]
    obtain ⟨hend, hreturns⟩ := run_turn h.look
    rw [QueueOp.acts, QueueOp.steps, List.singleton_append, runOps_cons, returns_cons, hpop,
      hend, hreturns, hresume]
    exact ⟨rfl, rfl⟩

/-- **An operation that nobody comes in between of is such steps**, and leaves nobody in the
middle of anything. -/
theorem run_acts (h : s.AtRest) (op : QueueOp α) :
    (runOps perform s op.acts).2.AtRest ∧
      (runOps perform s op.acts).2.queue = (s.queue.attend op).2 ∧
      s.returns op.acts = returned (s.queue.attend op).1 := by
  by_cases hop : op = .pop
  · subst hop
    obtain ⟨hend, hreturns⟩ := run_pop h
    rw [hend, hreturns, SendQueue.attend_pop]
    exact ⟨⟨h.look, SendQueue.waiter_pop _, h.owed⟩, rfl, (List.append_nil _).symm⟩
  · obtain ⟨⟨rounds, hend⟩, hreturns, hanswer⟩ := run_steps h hop
    obtain ⟨hend', hreturns'⟩ :=
      run_turn (s := ⟨(s.queue.perform op).2, rounds, none, []⟩) rfl
    rw [QueueOp.acts, returns_append, runOps_append, hend, hreturns, hreturns']
    dsimp only
    rw [hend']
    refine ⟨⟨rfl, SendQueue.waiter_resume _, rfl⟩, rfl, ?_⟩
    rw [returned, SendQueue.attend, hanswer]

/-- Operations one after another are such steps. -/
theorem run_flatMap (ops : List (QueueOp α)) : ∀ {s : SharedQueue α}, s.AtRest →
    (runOps perform s (ops.flatMap QueueOp.acts)).2.AtRest ∧
      (runOps perform s (ops.flatMap QueueOp.acts)).2.queue =
        (runOps SendQueue.attend s.queue ops).2 ∧
      s.returns (ops.flatMap QueueOp.acts) =
        (runOps SendQueue.attend s.queue ops).1.flatMap returned := by
  induction ops with
  | nil => exact fun h => ⟨h, rfl, rfl⟩
  | cons op ops ih =>
    intro s h
    obtain ⟨hrest, hqueue, hreturns⟩ := run_acts h op
    obtain ⟨hrest', hqueue', hreturns'⟩ := ih hrest
    rw [List.flatMap_cons, returns_append, runOps_append, runOps_cons, hreturns, hreturns',
      ← hqueue]
    exact ⟨hrest', hqueue', List.flatMap_cons.symm⟩

/-- The tiers of a queue are empty when its list is. -/
theorem Stocks.toList_eq_nil {l : Arrivals α} (h : s.Stocks l) (hnil : l.items = []) :
    s.queue.toList = [] := by
  have hhigh : s.queue.high = SendQueue.tier .high l.items := h.holds.high
  have hlow : s.queue.low = SendQueue.tier .low l.items := h.holds.low
  rw [SendQueue.toList, hhigh, hlow, hnil]
  rfl

/-- **No wake-up is lost.**  Whatever steps the threads take, and in whatever order, the queue
holds in its tiers what the list of arrivals comes to, and as soon as everybody has woken whom
he was to wake, a consumer who sleeps has an open queue before him and nothing in it.  Only a
look at the queue ever tells him anything, and no wake-up does: that the queue is closed, which
it is; that there is nothing to take, which there is not; or an item, before which none of its
priority has come that is still there, and none is there of a higher one.

So it is, too, when each operation is left alone and the consumer goes on when he is woken.
These are such steps, and after each operation nobody is in the middle of anything: whoever
sleeps has an open queue before him and nothing in it, and whoever came back has found the
queue closed, or has the first item in it. -/
theorem nobody_oversleeps :
    (∀ acts : List (QueueAct α),
      let s := (runOps perform fresh acts).2
      let l := Arrivals.of (answered perform fresh acts)
      (s.queue.high = SendQueue.tier .high l.items ∧ s.queue.low = SendQueue.tier .low l.items ∧
        s.queue.closed = l.closed) ∧
      (s.queue.waiter = .waiting → s.owed = [] →
        s.queue.closed = false ∧ s.queue.toList = []) ∧
      ∀ act outcome, (s.perform act).1 = .polled outcome →
        act = .look ∧
          match outcome with
          | .closed => s.queue.closed = true
          | .waiting => s.queue.closed = false ∧ s.queue.toList = []
          | .item a => s.queue.closed = false ∧ ∃ p before after,
              l.items = before ++ (p, a) :: after ∧ (∀ e ∈ before, e.1 ≠ p) ∧
                (p = .low → s.queue.high = [])) ∧
    ∀ ops : List (QueueOp α),
      let run := runOps SendQueue.attend SendQueue.empty ops
      let acts := ops.flatMap QueueOp.acts
      (run.2 = (runOps perform fresh acts).2.queue ∧ (runOps perform fresh acts).2.AtRest ∧
        run.1.flatMap returned = fresh.returns acts) ∧
      (run.2.waiter = .waiting → run.2.closed = false ∧ run.2.toList = []) ∧
      ∀ op, ∀ result ∈ returned (run.2.attend op).1,
        if (run.2.faced op).closed then result = none
        else ∃ a, result = some a ∧ (run.2.faced op).toList.head? = some a := by
  have stocks : ∀ acts : List (QueueAct α), (runOps perform fresh acts).2.Stocks
      (Arrivals.of (answered perform fresh acts)) := fun acts => stocks_run acts stocks_fresh
  have asleep : ∀ acts : List (QueueAct α), (runOps perform fresh acts).2.queue.waiter = .waiting →
      (runOps perform fresh acts).2.owed = [] →
        (runOps perform fresh acts).2.queue.closed = false ∧
          (runOps perform fresh acts).2.queue.toList = [] := by
    intro acts hw howed
    obtain ⟨hopen, hnil⟩ := (stocks acts).asleep (Or.inl hw) howed
    exact ⟨(stocks acts).closed.trans hopen, (stocks acts).toList_eq_nil hnil⟩
  constructor
  · intro acts s l
    have h : s.Stocks l := stocks acts
    refine ⟨⟨h.holds.high, h.holds.low, h.closed⟩, asleep acts, ?_⟩
    intro act outcome hpolled
    refine ⟨(polled_of_perform hpolled).1, ?_⟩
    have htold := told_of_perform h hpolled
    cases outcome with
    | closed => exact h.closed.trans htold
    | waiting => exact ⟨h.closed.trans htold.1, h.toList_eq_nil htold.2⟩
    | item a =>
      obtain ⟨p, hopen, hfirst⟩ := htold
      obtain ⟨before, after, hitems, hbefore, hlow⟩ := Arrivals.first?_eq_some_iff.mp hfirst
      refine ⟨h.closed.trans hopen, p, before, after, hitems, hbefore, fun hp => ?_⟩
      refine h.holds.high.trans (SendQueue.tier_eq_nil_iff.mpr fun e he => ?_)
      rw [hlow hp e he]
      exact Priority.noConfusion
  · intro ops run acts
    obtain ⟨hrest, hqueue, hreturns⟩ :=
      run_flatMap ops (s := fresh) ⟨rfl, Waiter.noConfusion, rfl⟩
    refine ⟨⟨hqueue.symm, hrest, hreturns.symm⟩, ?_, fun op => SendQueue.returned_attend _ op⟩
    intro hw
    have hw' : (runOps perform fresh acts).2.queue.waiter = .waiting := by
      rw [hqueue]
      exact hw
    have hasleep := asleep acts hw' hrest.owed
    rw [hqueue] at hasleep
    exact hasleep

/-- A wake-up is kept from a push whose item another has taken.  The consumer who asks for an
item then sleeps all the same, before a queue in which there is nothing, and the next push
wakes him. -/
theorem nobody_oversleeps_kept :
    (runOps SendQueue.attend (SendQueue.empty : SendQueue Nat)
        [.push .low 1, .tryPop, .pop]).2 = ⟨[], [], false, false, .waiting⟩ ∧
      ((runOps SendQueue.attend (SendQueue.empty : SendQueue Nat)
        [.push .low 1, .tryPop, .pop]).2.closed = false ∧
       (runOps SendQueue.attend (SendQueue.empty : SendQueue Nat)
        [.push .low 1, .tryPop, .pop]).2.toList = []) ∧
      fresh.returns ([.push .low 1, .tryPop, .pop, .push .high 2].flatMap QueueOp.acts) =
        [some 2] := by
  refine ⟨by decide, ((nobody_oversleeps (α := Nat)).2 [.push .low 1, .tryPop, .pop]).2.1
    (by decide), ?_⟩
  rw [← ((nobody_oversleeps (α := Nat)).2 [.push .low 1, .tryPop, .pop, .push .high 2]).1.2.2]
  decide

/-- A wake-up that is kept from a push whose item another has taken makes the consumer look
once more, and then he sleeps; a push in between of his look and his sleep keeps him awake. -/
example : (runOps perform fresh
    [.push .low 1, .ring 0, .tryPop, .pop, .look, .wait, .look, .push .low 2, .ring 0, .wait,
      .look, .pop, .look, .wait]).1 =
    [.pushed true, .done, .tried (some 1), .done, .polled .waiting, .done, .polled .waiting,
      .pushed true, .done, .done, .polled (.item 2), .done, .polled .waiting, .done] := by
  decide

end SharedQueue

end ZoneBus
