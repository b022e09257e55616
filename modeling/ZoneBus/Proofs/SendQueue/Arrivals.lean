import Mathlib.Algebra.Ring.Nat
import ZoneBus.Proofs.Runs
import ZoneBus.Proofs.SendQueue.Tiers

/-!
# A send queue is one list of arrivals

The two tiers of a send queue, its waiting writer and the wake-up that it may keep come to
one list: the items in the order of their arrival, each with its priority.  A push adds at
the end of it, a pop takes the earliest item of the highest priority there is, and closing
empties it.  So every item that was accepted is still there, or was taken, or was dropped
when the queue was closed; it is so once; and within a priority the items go in the order in
which they came.

## Main definitions

* `QueueOp`, `QueueAnswer`, `SendQueue.perform` — the operations of a send queue.
* `Arrivals`, `Arrivals.perform` — the list, and the same operations on it.
* `Passage`, `Arrivals.journal` — what became of the items.
* `Arrivals.Holds` — a send queue holds the items of a list.

## Main results

* `Arrivals.first?_eq_some_iff` — which item is taken.
* `Arrivals.holds_perform` — every operation answers alike, and keeps queue and list in step.
* `Arrivals.tier_journal` — nothing is lost, doubled, or overtaken within its priority.
* `Arrivals.queue_is_list` — **the whole comparison.**
-/

namespace ZoneBus

/-- What is asked of a send queue. -/
inductive QueueOp (α : Type) where
  /-- To add an item. -/
  | push (priority : Priority) (a : α)
  /-- To take an item, without waiting. -/
  | tryPop
  /-- To take an item, waiting for one: the first look at the queue, or the next one. -/
  | pop
  /-- To give up waiting. -/
  | leave
  /-- To drop all items and refuse new ones. -/
  | close
  /-- To take items again. -/
  | reopen

/-- What a send queue answers. -/
inductive QueueAnswer (α : Type) where
  /-- Whether an item was accepted. -/
  | pushed (accepted : Bool)
  /-- The item that was taken, if there was one. -/
  | tried (item : Option α)
  /-- What waiting for an item has come to. -/
  | polled (outcome : Polled α)
  /-- How many items were dropped. -/
  | closed (dropped : Nat)
  /-- Nothing. -/
  | done
deriving DecidableEq

namespace QueueAnswer

variable {α : Type}

/-- The item that was taken. -/
def item? : QueueAnswer α → Option α
  | tried item => item
  | polled (.item a) => some a
  | _ => none

/-- How many items were dropped. -/
def dropped : QueueAnswer α → Nat
  | closed n => n
  | _ => 0

end QueueAnswer

/-- The item that a push asked to add, when the answer says that it was accepted. -/
def QueueOp.accepted? {α : Type} : QueueOp α × QueueAnswer α → Option (Priority × α)
  | (.push priority a, .pushed true) => some (priority, a)
  | _ => none

namespace SendQueue

variable {α : Type}

/-- Whoever waits for an item looks at the queue: at once when it begins to wait, and again
when it was woken. -/
def pop (q : SendQueue α) : Polled α × SendQueue α :=
  match q.waiter with
  | .absent => q.poll
  | _ => q.resume

/-- One operation. -/
def perform (q : SendQueue α) : QueueOp α → QueueAnswer α × SendQueue α
  | .push priority a =>
    match q.push priority a with
    | some q' => (.pushed true, q')
    | none => (.pushed false, q)
  | .tryPop =>
    match q.tryPop with
    | some (a, q') => (.tried (some a), q')
    | none => (.tried none, q)
  | .pop => (.polled q.pop.1, q.pop.2)
  | .leave => (.done, q.leave)
  | .close => (.closed q.close.1, q.close.2)
  | .reopen => (.done, q.reopen)

end SendQueue

open SendQueue (tier)

/-- The items of a queue in the order of their arrival, each with its priority. -/
structure Arrivals (α : Type) where
  /-- The items. -/
  items : List (Priority × α)
  /-- Whether items are refused. -/
  closed : Bool
deriving DecidableEq

/-- What becomes of an item. -/
inductive Passage (α : Type) where
  /-- It is accepted. -/
  | accepted (e : Priority × α)
  /-- It is taken by a pop. -/
  | taken (e : Priority × α)
  /-- It is dropped by a close. -/
  | dropped (e : Priority × α)
deriving DecidableEq

namespace Passage

variable {α : Type}

/-- The items that were accepted. -/
def allAccepted (passages : List (Passage α)) : List (Priority × α) :=
  passages.filterMap fun
    | accepted e => some e
    | _ => none

/-- The items that were taken. -/
def allTaken (passages : List (Passage α)) : List (Priority × α) :=
  passages.filterMap fun
    | taken e => some e
    | _ => none

/-- The items that were dropped. -/
def allDropped (passages : List (Passage α)) : List (Priority × α) :=
  passages.filterMap fun
    | dropped e => some e
    | _ => none

/-- The items that were taken or dropped, in the order in which they went. -/
def allGone (passages : List (Passage α)) : List (Priority × α) :=
  passages.filterMap fun
    | taken e => some e
    | dropped e => some e
    | accepted _ => none

end Passage

namespace Arrivals

variable {α : Type}

/-- No items yet. -/
def empty : Arrivals α := ⟨[], false⟩

/-- The earliest item of the highest priority there is. -/
def first? (items : List (Priority × α)) : Option (Priority × α) :=
  (items.find? fun e => decide (e.1 = .high)).or (items.find? fun e => decide (e.1 = .low))

/-- The items without the earliest one of a priority. -/
def without (items : List (Priority × α)) (p : Priority) : List (Priority × α) :=
  items.eraseP fun e => decide (e.1 = p)

/-- Takes the earliest item of the highest priority there is. -/
def take (l : Arrivals α) : Option (Priority × α) × Arrivals α :=
  match first? l.items with
  | some e => (some e, { l with items := without l.items e.1 })
  | none => (none, l)

/-- One operation: the list takes an item at its end, gives up the earliest one of the
highest priority, or is emptied. -/
def perform (l : Arrivals α) : QueueOp α → QueueAnswer α × Arrivals α
  | .push priority a =>
    if l.closed then (.pushed false, l)
    else (.pushed true, { l with items := l.items ++ [(priority, a)] })
  | .tryPop => (.tried (l.take.1.map Prod.snd), l.take.2)
  | .pop =>
    if l.closed then (.polled .closed, l)
    else
      match l.take.1 with
      | some e => (.polled (.item e.2), l.take.2)
      | none => (.polled .waiting, l)
  | .leave => (.done, l)
  | .close => (.closed l.items.length, ⟨[], true⟩)
  | .reopen => (.done, { l with closed := false })

/-- What becomes of items by an operation. -/
def passages (l : Arrivals α) : QueueOp α → List (Passage α)
  | .push priority a => if l.closed then [] else [.accepted (priority, a)]
  | .tryPop => (l.take.1.map Passage.taken).toList
  | .pop => if l.closed then [] else (l.take.1.map Passage.taken).toList
  | .close => l.items.map Passage.dropped
  | _ => []

/-- What becomes of items by a sequence of operations. -/
def journal (l : Arrivals α) : List (QueueOp α) → List (Passage α)
  | [] => []
  | op :: ops => l.passages op ++ journal (l.perform op).2 ops

/-! ### What is taken -/

/-- **Which item is taken**: none stands before it with its priority, and none anywhere with
a higher one. -/
theorem first?_eq_some_iff {items : List (Priority × α)} {e : Priority × α} :
    first? items = some e ↔
      ∃ before after, items = before ++ e :: after ∧ (∀ x ∈ before, x.1 ≠ e.1) ∧
        (e.1 = .low → ∀ x ∈ items, x.1 = .low) := by
  have isLow : ∀ p : Priority, p ≠ .high ↔ p = .low := by
    intro p
    cases p <;> simp
  unfold first?
  cases hh : items.find? fun e => decide (e.1 = .high) with
  | some e' =>
    rw [Option.some_or, Option.some.injEq]
    obtain ⟨hp, before, after, rfl, hbefore⟩ := List.find?_eq_some_iff_append.mp hh
    have hhigh : e'.1 = .high := by simpa using hp
    constructor
    · rintro rfl
      refine ⟨before, after, rfl, ?_, ?_⟩
      · intro x hx
        simpa [hhigh] using hbefore x hx
      · intro hlow
        rw [hhigh] at hlow
        cases hlow
    · -- an item that is taken has the priority high, so it is the earliest such one too
      rintro ⟨before', after', heq, hbefore', hlow⟩
      have he : e.1 = .high := by
        by_contra hne
        have := hlow ((isLow e.1).mp hne) e' (by simp)
        rw [hhigh] at this
        cases this
      have hfind : (before' ++ e :: after').find? (fun e => decide (e.1 = .high)) = some e :=
        List.find?_eq_some_iff_append.mpr ⟨by simpa using he, before', after', rfl, by
          intro x hx
          simpa [he] using hbefore' x hx⟩
      rw [heq, hfind] at hh
      exact (Option.some.inj hh).symm
  | none =>
    rw [Option.none_or]
    have hnone : ∀ x ∈ items, x.1 = .low := by
      intro x hx
      have := List.find?_eq_none.mp hh x hx
      exact (isLow x.1).mp (by simpa using this)
    rw [List.find?_eq_some_iff_append]
    constructor
    · rintro ⟨hp, before, after, rfl, hbefore⟩
      have hlow : e.1 = .low := by simpa using hp
      refine ⟨before, after, rfl, ?_, fun _ => hnone⟩
      intro x hx
      simpa [hlow] using hbefore x hx
    · rintro ⟨before, after, rfl, hbefore, _⟩
      have hlow : e.1 = .low := hnone e (by simp)
      refine ⟨by simpa using hlow, before, after, rfl, ?_⟩
      intro x hx
      simpa [hlow] using hbefore x hx

theorem first?_eq_none_iff {items : List (Priority × α)} : first? items = none ↔ items = [] := by
  unfold first?
  rw [Option.or_eq_none_iff, List.find?_eq_none, List.find?_eq_none]
  constructor
  · rintro ⟨hhigh, hlow⟩
    cases items with
    | nil => rfl
    | cons e items =>
      have h1 := hhigh e (by simp)
      have h2 := hlow e (by simp)
      cases hp : e.1 <;> simp [hp] at h1 h2
  · rintro rfl
    simp

/-- What is taken was at the front of its tier, and the other tier stays. -/
theorem tier_take {items : List (Priority × α)} {e : Priority × α} (h : first? items = some e)
    (p : Priority) : tier p items = tier p [e] ++ tier p (without items e.1) := by
  obtain ⟨before, after, rfl, hbefore, _⟩ := first?_eq_some_iff.mp h
  have herase : without (before ++ e :: after) e.1 = before ++ after := by
    unfold without
    rw [List.eraseP_append_right _ (by simpa using hbefore)]
    simp
  rw [herase, SendQueue.tier_append, SendQueue.tier_append, SendQueue.tier_cons]
  by_cases hp : e.1 = p
  · have hnil : tier p before = [] := SendQueue.tier_eq_nil_iff.mpr (hp ▸ hbefore)
    simp [hp, hnil, SendQueue.tier_cons]
  · simp [hp, SendQueue.tier_cons]

/-! ### Queue and list in step -/

/-- A send queue holds the items of a list, each in its tier; closed it is empty, and so it
is while somebody waits. -/
structure Holds (q : SendQueue α) (l : Arrivals α) : Prop where
  /-- The urgent items. -/
  high : q.high = tier .high l.items
  /-- The other items. -/
  low : q.low = tier .low l.items
  /-- Both refuse items, or neither does. -/
  closed : q.closed = l.closed
  /-- A closed queue is empty. -/
  empty : l.closed = true → l.items = []
  /-- Whoever waits has found the queue open and empty. -/
  parked : q.waiter = .waiting → l.closed = false ∧ l.items = []

theorem holds_empty : Holds (SendQueue.empty : SendQueue α) Arrivals.empty where
  high := rfl
  low := rfl
  closed := rfl
  empty := by intro h; cases h
  parked := by intro h; cases h

namespace Holds

variable {q q' : SendQueue α} {l : Arrivals α}

/-- Who waits does not matter, unless it is parked. -/
theorem of_eq (h : Holds q l) (hhigh : q'.high = q.high) (hlow : q'.low = q.low)
    (hclosed : q'.closed = q.closed)
    (hparked : q'.waiter = .waiting → l.closed = false ∧ l.items = []) : Holds q' l where
  high := hhigh.trans h.high
  low := hlow.trans h.low
  closed := hclosed.trans h.closed
  empty := h.empty
  parked := hparked

/-- As many items are in the tiers as in the list. -/
theorem size (h : Holds q l) : q.size = l.items.length := by
  have hperm := (SendQueue.filter_tiers_perm l.items).length_eq
  unfold SendQueue.size
  rw [h.high, h.low, ← hperm]
  simp [tier]

theorem waiter_wakeOne (q : SendQueue α) : q.wakeOne.waiter ≠ .waiting := by
  unfold SendQueue.wakeOne
  cases hw : q.waiter <;> simp

theorem push (h : Holds q l) (hopen : l.closed = false) (priority : Priority) (a : α) :
    ∃ q', q.push priority a = some q' ∧
      Holds q' { l with items := l.items ++ [(priority, a)] } := by
  have hq : q.closed = false := h.closed.trans hopen
  cases hp : q.push priority a with
  | none =>
    rw [SendQueue.push_eq_none_iff, hq] at hp
    cases hp
  | some q' =>
    obtain ⟨hhigh, hlow⟩ := SendQueue.extends_push hp
    refine ⟨q', rfl, ?_, ?_, ?_, ?_, ?_⟩
    · rw [hhigh, h.high, SendQueue.tier_append]
    · rw [hlow, h.low, SendQueue.tier_append]
    · rw [(SendQueue.push_spec hp).2, h.closed]
    · intro hc
      rw [hopen] at hc
      cases hc
    · -- a push wakes whoever waits
      intro hw
      rw [SendQueue.push.eq_def, hq] at hp
      cases priority with
      | high =>
        obtain rfl := Option.some.inj hp
        exact absurd hw (waiter_wakeOne _)
      | low =>
        obtain rfl := Option.some.inj hp
        exact absurd hw (waiter_wakeOne _)

/-- The queue and the list give up the same item. -/
theorem tryPop (h : Holds q l) :
    (∃ e q', l.take.1 = some e ∧ q.tryPop = some (e.2, q') ∧ Holds q' l.take.2) ∨
    (l.take = (none, l) ∧ l.items = [] ∧ q.tryPop = none) := by
  unfold take
  cases hf : first? l.items with
  | none =>
    have hnil := first?_eq_none_iff.mp hf
    refine Or.inr ⟨rfl, hnil, ?_⟩
    unfold SendQueue.tryPop
    rw [h.high, h.low, hnil]
    rfl
  | some e =>
    have hhigh := tier_take hf .high
    have hlow := tier_take hf .low
    obtain ⟨_, _, _, _, hpriority⟩ := first?_eq_some_iff.mp hf
    have hclosed : l.closed = false := by
      by_contra hc
      rw [h.empty (by simpa using hc)] at hf
      cases hf
    have hparked : q.waiter ≠ .waiting := by
      intro hw
      rw [(h.parked hw).2] at hf
      cases hf
    refine Or.inl ⟨e, ?_⟩
    cases hp : e.1 with
    | high =>
      rw [hp] at hhigh hlow
      refine ⟨{ q with high := tier .high (without l.items e.1) }, rfl, ?_, ?_⟩
      · unfold SendQueue.tryPop
        rw [h.high, hhigh, hp]
        simp [SendQueue.tier_cons, hp]
      · refine ⟨rfl, ?_, h.closed, ?_, fun hw => absurd hw hparked⟩
        · rw [hp]
          simpa [SendQueue.tier_cons, hp, h.low] using hlow
        · intro hc
          rw [hclosed] at hc
          cases hc
    | low =>
      rw [hp] at hhigh hlow
      -- a low item is taken when there is no other
      have hnone : tier .high l.items = [] := by
        refine SendQueue.tier_eq_nil_iff.mpr ?_
        intro x hx
        simp [hpriority hp x hx]
      refine ⟨{ q with low := tier .low (without l.items e.1) }, rfl, ?_, ?_⟩
      · unfold SendQueue.tryPop
        rw [h.high, h.low, hnone, hlow, hp]
        simp [SendQueue.tier_cons, hp]
      · refine ⟨?_, rfl, h.closed, ?_, fun hw => absurd hw hparked⟩
        · rw [hp]
          simpa [SendQueue.tier_cons, hp, h.high] using hhigh
        · intro hc
          rw [hclosed] at hc
          cases hc

/-- Closing empties both. -/
theorem close (h : Holds q l) : q.close.1 = l.items.length ∧ Holds q.close.2 ⟨[], true⟩ := by
  obtain ⟨hhigh, hlow⟩ := List.append_eq_nil_iff.mp (SendQueue.toList_close q).1
  refine ⟨h.size, hhigh, hlow, (SendQueue.toList_close q).2, fun _ => rfl, ?_⟩
  intro hw
  exact absurd hw (waiter_wakeOne _)

theorem reopen (h : Holds q l) : Holds q.reopen { l with closed := false } where
  high := h.high
  low := h.low
  closed := rfl
  empty := by intro hc; cases hc
  parked := fun hw => ⟨rfl, (h.parked hw).2⟩

theorem leave (h : Holds q l) : Holds q.leave l := by
  unfold SendQueue.leave
  cases q.waiter with
  | absent => exact h.of_eq rfl rfl rfl (by intro hw; cases hw)
  | waiting => exact h.of_eq rfl rfl rfl (by intro hw; cases hw)
  | woken => exact h.of_eq rfl rfl rfl (by intro hw; cases hw)

/-- A look at the queue finds what the list has. -/
theorem poll (h : Holds q l) :
    QueueAnswer.polled q.poll.1 = (l.perform .pop).1 ∧ Holds q.poll.2 (l.perform .pop).2 := by
  unfold SendQueue.poll Arrivals.perform
  rw [h.closed]
  cases hc : l.closed with
  | true => exact ⟨rfl, h.of_eq rfl rfl (h.closed.trans hc).symm (by intro hw; cases hw)⟩
  | false =>
    obtain ⟨e, q', htake, hpop, hq'⟩ | ⟨htake, hnil, hpop⟩ := h.tryPop
    · rw [hpop, htake]
      exact ⟨rfl, hq'.of_eq rfl rfl rfl (by intro hw; cases hw)⟩
    · rw [hpop, htake]
      exact ⟨rfl, h.of_eq rfl rfl (h.closed.trans hc).symm fun _ => ⟨hc, hnil⟩⟩

theorem pop (h : Holds q l) :
    QueueAnswer.polled q.pop.1 = (l.perform .pop).1 ∧ Holds q.pop.2 (l.perform .pop).2 := by
  unfold SendQueue.pop SendQueue.resume
  cases hw : q.waiter with
  | absent => exact h.poll
  | woken => exact h.poll
  | waiting =>
    -- nobody has woken the one who waits, since there is nothing to wake it for
    obtain ⟨hopen, hnil⟩ := h.parked hw
    have htake : l.take = (none, l) := by
      unfold take
      rw [first?_eq_none_iff.mpr hnil]
    unfold Arrivals.perform
    rw [hopen, htake]
    exact ⟨rfl, h⟩

end Holds

/-- Every operation answers alike, and keeps queue and list in step. -/
theorem holds_perform {q : SendQueue α} {l : Arrivals α} (h : Holds q l) (op : QueueOp α) :
    (q.perform op).1 = (l.perform op).1 ∧ Holds (q.perform op).2 (l.perform op).2 := by
  cases op with
  | push priority a =>
    unfold SendQueue.perform perform
    cases hc : l.closed with
    | true =>
      have hp : q.push priority a = none := SendQueue.push_eq_none_iff.mpr (h.closed.trans hc)
      simp only [hp]
      exact ⟨rfl, h⟩
    | false =>
      obtain ⟨q', hp, hq'⟩ := h.push hc priority a
      simp only [hp]
      exact ⟨rfl, by simpa [hc] using hq'⟩
  | tryPop =>
    unfold SendQueue.perform perform
    obtain ⟨e, q', htake, hpop, hq'⟩ | ⟨htake, _, hpop⟩ := h.tryPop
    · simp only [hpop, htake]
      exact ⟨rfl, hq'⟩
    · simp only [hpop, htake]
      exact ⟨rfl, h⟩
  | pop => exact h.pop
  | leave => exact ⟨rfl, h.leave⟩
  | close => exact ⟨congrArg QueueAnswer.closed h.close.1, h.close.2⟩
  | reopen => exact ⟨rfl, h.reopen⟩

/-! ### What becomes of the items -/

theorem taken_or_none (l : Arrivals α) :
    (∃ e, first? l.items = some e ∧ l.take = (some e, { l with items := without l.items e.1 })) ∨
      l.take = (none, l) := by
  unfold take
  cases hf : first? l.items with
  | none => exact Or.inr rfl
  | some e => exact Or.inl ⟨e, rfl, rfl⟩

/-- One operation keeps the order within a priority: what was there and what came in is what
goes out and what stays. -/
theorem tier_passages (l : Arrivals α) (op : QueueOp α) (p : Priority) :
    tier p l.items ++ tier p (Passage.allAccepted (l.passages op)) =
      tier p (Passage.allGone (l.passages op)) ++ tier p (l.perform op).2.items := by
  have htake : ∀ e, first? l.items = some e →
      tier p l.items ++ tier p (Passage.allAccepted [Passage.taken e]) =
        tier p (Passage.allGone [Passage.taken e]) ++ tier p (without l.items e.1) := by
    intro e hf
    simpa [Passage.allAccepted, Passage.allGone] using tier_take hf p
  cases op with
  | push priority a =>
    unfold passages perform
    cases hc : l.closed with
    | true => simp [Passage.allAccepted, Passage.allGone]
    | false => simp [Passage.allAccepted, Passage.allGone, SendQueue.tier_append]
  | tryPop =>
    unfold passages perform
    obtain ⟨e, hf, ht⟩ | ht := taken_or_none l
    · rw [ht]
      exact htake e hf
    · rw [ht]
      simp [Passage.allAccepted, Passage.allGone]
  | pop =>
    unfold passages perform
    cases hc : l.closed with
    | true => simp [Passage.allAccepted, Passage.allGone]
    | false =>
      obtain ⟨e, hf, ht⟩ | ht := taken_or_none l
      · rw [ht]
        exact htake e hf
      · rw [ht]
        simp [Passage.allAccepted, Passage.allGone]
  | leave => simp [passages, perform, Passage.allAccepted, Passage.allGone]
  | close => simp [passages, perform, Passage.allAccepted, Passage.allGone]
  | reopen => simp [passages, perform, Passage.allAccepted, Passage.allGone]

/-- Nothing is lost, doubled, or overtaken within its priority: what was there and what came
in, in this order, is what went out and what is there. -/
theorem tier_journal (p : Priority) (ops : List (QueueOp α)) : ∀ l : Arrivals α,
    tier p l.items ++ tier p (Passage.allAccepted (l.journal ops)) =
      tier p (Passage.allGone (l.journal ops)) ++ tier p (runOps perform l ops).2.items := by
  induction ops with
  | nil =>
    intro l
    exact List.append_nil _
  | cons op ops ih =>
    intro l
    have haccepted : Passage.allAccepted (l.journal (op :: ops)) =
        Passage.allAccepted (l.passages op) ++
          Passage.allAccepted ((l.perform op).2.journal ops) := List.filterMap_append
    have hgone : Passage.allGone (l.journal (op :: ops)) =
        Passage.allGone (l.passages op) ++ Passage.allGone ((l.perform op).2.journal ops) :=
      List.filterMap_append
    rw [haccepted, hgone, SendQueue.tier_append, SendQueue.tier_append, ← List.append_assoc,
      tier_passages, List.append_assoc, ih, List.append_assoc, runOps_cons]

/-- What went out was taken or dropped. -/
theorem allGone_perm (story : List (Passage α)) :
    (Passage.allGone story).Perm (Passage.allTaken story ++ Passage.allDropped story) := by
  induction story with
  | nil => exact List.Perm.refl _
  | cons passage story ih =>
    cases passage with
    | accepted e => exact ih
    | taken e => exact ih.cons e
    | dropped e => exact (ih.cons e).trans List.perm_middle.symm

theorem allTaken_sublist (story : List (Passage α)) :
    (Passage.allTaken story).Sublist (Passage.allGone story) := by
  induction story with
  | nil => exact List.Sublist.refl _
  | cons passage story ih =>
    cases passage with
    | accepted e => exact ih
    | taken e => exact ih.cons_cons e
    | dropped e => exact ih.cons e

/-- Lists with the same tiers have the same items. -/
theorem perm_of_tier_eq {items more : List (Priority × α)} (h : ∀ p, tier p items = tier p more) :
    items.Perm more := by
  refine (SendQueue.filter_tiers_perm items).symm.trans (List.Perm.trans ?_
    (SendQueue.filter_tiers_perm more))
  rw [← SendQueue.map_tier, ← SendQueue.map_tier, ← SendQueue.map_tier, ← SendQueue.map_tier,
    h .high, h .low]

/-! ### What the answers tell -/

/-- The answers to one operation tell what became of the items by it. -/
theorem answer_passages (l : Arrivals α) (op : QueueOp α) :
    (QueueOp.accepted? (op, (l.perform op).1)).toList = Passage.allAccepted (l.passages op) ∧
      (l.perform op).1.item?.toList = (Passage.allTaken (l.passages op)).map Prod.snd ∧
      (l.perform op).1.dropped = (Passage.allDropped (l.passages op)).length := by
  cases op with
  | push priority a =>
    unfold perform passages
    cases hc : l.closed <;> exact ⟨rfl, rfl, rfl⟩
  | tryPop =>
    unfold perform passages
    obtain ⟨e, _, ht⟩ | ht := taken_or_none l
    · rw [ht]
      exact ⟨rfl, rfl, rfl⟩
    · rw [ht]
      exact ⟨rfl, rfl, rfl⟩
  | pop =>
    unfold perform passages
    cases hc : l.closed with
    | true => exact ⟨rfl, rfl, rfl⟩
    | false =>
      obtain ⟨e, _, ht⟩ | ht := taken_or_none l
      · rw [ht]
        exact ⟨rfl, rfl, rfl⟩
      · rw [ht]
        exact ⟨rfl, rfl, rfl⟩
  | leave => exact ⟨rfl, rfl, rfl⟩
  | close =>
    simp [perform, passages, QueueAnswer.item?, QueueAnswer.dropped, QueueOp.accepted?,
      Passage.allAccepted, Passage.allTaken, Passage.allDropped]
  | reopen => exact ⟨rfl, rfl, rfl⟩

/-- The answers tell what became of the items. -/
theorem answers_journal (ops : List (QueueOp α)) : ∀ l : Arrivals α,
    (ops.zip (runOps perform l ops).1).filterMap QueueOp.accepted? =
        Passage.allAccepted (l.journal ops) ∧
      (runOps perform l ops).1.filterMap QueueAnswer.item? =
        (Passage.allTaken (l.journal ops)).map Prod.snd ∧
      ((runOps perform l ops).1.map QueueAnswer.dropped).sum =
        (Passage.allDropped (l.journal ops)).length := by
  induction ops with
  | nil => exact fun l => ⟨rfl, rfl, rfl⟩
  | cons op ops ih =>
    intro l
    obtain ⟨haccepted, htaken, hdropped⟩ := answer_passages l op
    obtain ⟨haccepted', htaken', hdropped'⟩ := ih (l.perform op).2
    rw [runOps_cons]
    refine ⟨?_, ?_, ?_⟩
    · rw [List.zip_cons_cons, List.filterMap_cons, haccepted']
      simp only [journal, Passage.allAccepted, List.filterMap_append] at haccepted ⊢
      rw [← haccepted]
      cases QueueOp.accepted? (op, (l.perform op).1) <;> rfl
    · rw [List.filterMap_cons, htaken']
      simp only [journal, Passage.allTaken, List.filterMap_append, List.map_append] at htaken ⊢
      rw [← htaken]
      cases (l.perform op).1.item? <;> rfl
    · rw [List.map_cons, List.sum_cons, hdropped', hdropped]
      simp [journal, Passage.allDropped]

/-! ### The whole comparison -/

/-- **A send queue is one list of arrivals.**  It gives the answers of the list, and holds its
items, in its two tiers; closed it is empty.  The answers tell which items were accepted,
taken and dropped: every accepted item was taken, was dropped, or is still there, and is so
once; those of one priority go in the order in which they came; and when the next operation
takes an item that is not urgent, no urgent one is there. -/
theorem queue_is_list (ops : List (QueueOp α)) :
    let queue := runOps SendQueue.perform SendQueue.empty ops
    let list := runOps perform empty ops
    let story := journal empty ops
    (queue.1 = list.1 ∧ queue.2.high = tier .high list.2.items ∧
      queue.2.low = tier .low list.2.items ∧ queue.2.closed = list.2.closed ∧
      (queue.2.closed = true → queue.2.size = 0)) ∧
    ((ops.zip queue.1).filterMap QueueOp.accepted? = Passage.allAccepted story ∧
      queue.1.filterMap QueueAnswer.item? = (Passage.allTaken story).map Prod.snd ∧
      (queue.1.map QueueAnswer.dropped).sum = (Passage.allDropped story).length) ∧
    ((Passage.allAccepted story).Perm
        (Passage.allTaken story ++ Passage.allDropped story ++ list.2.items) ∧
      ∀ p, (tier p (Passage.allTaken story)).Sublist (tier p (Passage.allAccepted story)) ∧
        tier p (Passage.allAccepted story) =
          tier p (Passage.allGone story) ++ tier p list.2.items) ∧
    ∀ op a, .taken (.low, a) ∈ list.2.passages op → queue.2.high = [] := by
  intro queue list story
  let InStep : List (QueueOp α) → SendQueue α → Arrivals α → Prop := fun _ => Holds
  have keep : ∀ op ops q l, InStep (op :: ops) q l →
      (SendQueue.perform q op).1 = (perform l op).1 ∧
        InStep ops (SendQueue.perform q op).2 (perform l op).2 :=
    fun op _ _ _ h => holds_perform h op
  obtain ⟨hanswers, h⟩ : queue.1 = list.1 ∧ Holds queue.2 list.2 :=
    runOps_eq_of_inStep keep ops SendQueue.empty empty holds_empty
  have horder : ∀ p, tier p (Passage.allAccepted story) =
      tier p (Passage.allGone story) ++ tier p list.2.items := by
    intro p
    exact tier_journal p ops empty
  refine ⟨⟨hanswers, h.high, h.low, h.closed, ?_⟩, ?_, ⟨?_, ?_⟩, ?_⟩
  · intro hc
    rw [h.size, h.empty (h.closed.symm.trans hc)]
    rfl
  · rw [hanswers]
    exact answers_journal ops empty
  · have hperm : (Passage.allAccepted story).Perm (Passage.allGone story ++ list.2.items) := by
      refine perm_of_tier_eq fun p => ?_
      rw [SendQueue.tier_append, horder p]
    exact hperm.trans ((allGone_perm story).append_right _)
  · intro p
    refine ⟨?_, horder p⟩
    rw [horder p]
    refine List.Sublist.trans ?_ (List.sublist_append_left _ _)
    exact ((allTaken_sublist story).filter _).map _
  · intro op a htaken
    -- what is taken is the first of the list, and a low one is so when there is no other
    have hfirst : first? list.2.items = some (.low, a) := by
      have : list.2.take.1 = some (.low, a) := by
        cases op with
        | tryPop => simpa [passages] using htaken
        | pop =>
          by_cases hc : list.2.closed = true
          · simp [passages, hc] at htaken
          · simpa [passages, hc] using htaken
        | push priority b =>
          by_cases hc : list.2.closed = true <;> simp [passages, hc] at htaken
        | leave => cases htaken
        | close => simp [passages] at htaken
        | reopen => cases htaken
      obtain ⟨e, hf, ht⟩ | ht := taken_or_none list.2
      · rw [ht] at this
        rw [hf]
        exact this
      · rw [ht] at this
        cases this
    obtain ⟨_, _, _, _, hlow⟩ := first?_eq_some_iff.mp hfirst
    rw [h.high]
    refine SendQueue.tier_eq_nil_iff.mpr ?_
    intro x hx
    rw [hlow rfl x hx]
    exact Priority.noConfusion

/-- An urgent item overtakes another one, which is dropped; a later one is refused. -/
example : (runOps SendQueue.perform SendQueue.empty
    [.push .low 1, .push .high 2, .tryPop, .close, .push .low 3]).1 =
      [.pushed true, .pushed true, .tried (some 2), .closed 1, .pushed false] := by
  decide

end Arrivals

end ZoneBus
