import Mathlib.Data.List.Nodup
import ZoneBus.Proofs.Runs
import ZoneBus.Proofs.Subscription.Roll

/-!
# Notifications under way

A notification notes whom it will call before it calls anybody, and then calls them one
after another.  Between two of these calls anything may happen: a callback subscribes and
unsubscribes as it likes, itself and others, and begins notifications of its own, which go on
in the middle of the one that called it.  So a registry is taken here with all notifications
that are under way, and whatever is asked of it is asked in any order.  What a callback asks
comes between the step that calls it and the next one of its notification.

## Main definitions

* `Registry` — the subscriptions, and whom each notification is still to call.
* `RegistryCall`, `RegistryAnswer`, `Registry.perform` — what is asked of it.
* `Roll.of` — the roll that some calls and their answers come to.
* `calledIn`, `timesMade`, `timesEnded` — whom a notification called, and how often a
  subscription was made and ended.

## Main results

* `Registry.keeps_run` — both files describe the roll after any calls.
* `Registry.calledIn_run` — a notification calls those it noted, in order.
* `Registry.exists_calls_notify` — **a notification is such a sequence of calls**, whatever
  its callbacks do.
* `Registry.keeps_the_roll` — **what holds of the subscriptions, and of every notification.**
-/

namespace ZoneBus

variable {α : Type}

/-- The subscriptions, and the notifications under way. -/
structure Registry (α : Type) where
  /-- The subscriptions. -/
  subscriptions : Subscriptions α
  /-- Whom each notification is still to call, in the order in which they began. -/
  rounds : List (List (SubscriptionId × α))

/-- What is asked of a registry. -/
inductive RegistryCall (α : Type) where
  /-- To subscribe a callback to a place. -/
  | subscribe (place : Place) (callback : α)
  /-- To end a subscription. -/
  | unsubscribe (id : SubscriptionId)
  /-- To begin to notify the subscribers of a place. -/
  | notify (place : Place)
  /-- To go on with a notification: to call the next one. -/
  | goOn (round : Nat)
deriving DecidableEq

/-- What a registry answers. -/
inductive RegistryAnswer (α : Type) where
  /-- The subscription has this number. -/
  | subscribed (id : SubscriptionId)
  /-- Whether there was such a subscription. -/
  | unsubscribed (found : Bool)
  /-- The notification has this number. -/
  | begun (round : Nat)
  /-- This subscriber was called. -/
  | called (id : SubscriptionId) (callback : α)
  /-- Nobody is left to call: the notification is through. -/
  | through
  /-- There is no such notification. -/
  | unknown
deriving DecidableEq

namespace Roll

/-- The roll after a call with its answer. -/
def after (roll : Roll α) : RegistryCall α × RegistryAnswer α → Roll α
  | (.subscribe place callback, .subscribed id) => roll ++ [⟨id, place, callback⟩]
  | (.unsubscribe id, _) => roll.without id
  | _ => roll

/-- The roll that calls and their answers come to. -/
def of (story : List (RegistryCall α × RegistryAnswer α)) : Roll α := story.foldl after []

end Roll

/-- Whom a notification called, in order. -/
def calledIn (n : Nat) (story : List (RegistryCall α × RegistryAnswer α)) :
    List (SubscriptionId × α) :=
  story.filterMap fun
    | (.goOn m, .called id callback) => if m = n then some (id, callback) else none
    | _ => none

/-- How often a subscription was made under a number. -/
def timesMade (id : SubscriptionId) (story : List (RegistryCall α × RegistryAnswer α)) : Nat :=
  story.countP fun
    | (_, .subscribed j) => j == id
    | _ => false

/-- How often somebody was told that the subscription with a number was there and is ended. -/
def timesEnded (id : SubscriptionId) (story : List (RegistryCall α × RegistryAnswer α)) : Nat :=
  story.countP fun
    | (.unsubscribe j, .unsubscribed true) => j == id
    | _ => false

theorem calledIn_append (n : Nat) (story more : List (RegistryCall α × RegistryAnswer α)) :
    calledIn n (story ++ more) = calledIn n story ++ calledIn n more := List.filterMap_append

theorem calledIn_cons (n : Nat) (e : RegistryCall α × RegistryAnswer α)
    (story : List (RegistryCall α × RegistryAnswer α)) :
    calledIn n (e :: story) = calledIn n [e] ++ calledIn n story :=
  calledIn_append n [e] story

namespace Registry

/-- Nobody has subscribed. -/
def fresh : Registry α := ⟨.empty, []⟩

/-- What is answered to a call, and the registry after it. -/
def perform (r : Registry α) : RegistryCall α → RegistryAnswer α × Registry α
  | .subscribe place callback =>
    let (id, subscriptions) := r.subscriptions.subscribe place callback
    (.subscribed id, { r with subscriptions := subscriptions })
  | .unsubscribe id =>
    let (found, subscriptions) := r.subscriptions.unsubscribe id
    (.unsubscribed found, { r with subscriptions := subscriptions })
  | .notify place =>
    (.begun r.rounds.length,
      { r with rounds := r.rounds ++ [r.subscriptions.subscribers place] })
  | .goOn n =>
    match r.rounds[n]? with
    | some ((id, callback) :: rest) =>
      (.called id callback, { r with rounds := r.rounds.set n rest })
    | some [] => (.through, r)
    | none => (.unknown, r)

/-- Whom a notification is still to call. -/
def due (r : Registry α) (n : Nat) : List (SubscriptionId × α) := (r.rounds[n]?).getD []

variable {r : Registry α} {roll : Roll α} {n : Nat} {id : SubscriptionId}
  {calls : List (RegistryCall α)} {c : RegistryCall α}

/-! ### Notifications -/

theorem due_of_some {left : List (SubscriptionId × α)} (h : r.rounds[n]? = some left) :
    r.due n = left := by
  rw [due, h]
  rfl

/-- A notification under way stays there. -/
theorem rounds_perform_le (r : Registry α) (c : RegistryCall α) :
    r.rounds.length ≤ (r.perform c).2.rounds.length := by
  cases c with
  | subscribe | unsubscribe => exact Nat.le_refl _
  | notify =>
    show _ ≤ (r.rounds ++ [_]).length
    rw [List.length_append]
    exact Nat.le_add_right _ _
  | goOn n =>
    rw [perform]
    split
    · exact Nat.le_of_eq List.length_set.symm
    · exact Nat.le_refl _
    · exact Nat.le_refl _

theorem rounds_run_le (calls : List (RegistryCall α)) : ∀ r : Registry α,
    r.rounds.length ≤ (runOps perform r calls).2.rounds.length := by
  induction calls with
  | nil => exact fun r => Nat.le_refl _
  | cons c calls ih => exact fun r => Nat.le_trans (r.rounds_perform_le c) (ih _)

/-- Only its own steps call those that a notification is to call. -/
theorem rounds_perform_of_ne (hn : n < r.rounds.length) (hc : c ≠ .goOn n) :
    (r.perform c).2.rounds[n]? = r.rounds[n]? := by
  cases c with
  | subscribe | unsubscribe => rfl
  | notify => exact List.getElem?_append_left hn
  | goOn m =>
    have hmn : m ≠ n := fun h => hc (h ▸ rfl)
    rw [perform]
    split
    · exact List.getElem?_set_ne hmn
    · rfl
    · rfl

theorem rounds_run_of_notMem (calls : List (RegistryCall α)) : ∀ r : Registry α,
    n < r.rounds.length → .goOn n ∉ calls →
    (runOps perform r calls).2.rounds[n]? = r.rounds[n]? := by
  induction calls with
  | nil => exact fun r _ _ => rfl
  | cons c calls ih =>
    intro r hn hcalls
    rw [List.mem_cons, not_or] at hcalls
    rw [runOps_cons, ih _ (Nat.lt_of_lt_of_le hn (r.rounds_perform_le c)) hcalls.2,
      rounds_perform_of_ne hn (Ne.symm hcalls.1)]

/-- A step of a notification calls the next one that it is to call. -/
theorem perform_goOn_cons {e : SubscriptionId × α} {rest : List (SubscriptionId × α)}
    (h : r.rounds[n]? = some (e :: rest)) :
    r.perform (.goOn n) = (.called e.1 e.2, { r with rounds := r.rounds.set n rest }) := by
  rw [perform, h]

theorem perform_goOn_nil (h : r.rounds[n]? = some []) : r.perform (.goOn n) = (.through, r) := by
  rw [perform, h]

theorem lt_of_round {left : List (SubscriptionId × α)} (h : r.rounds[n]? = some left) :
    n < r.rounds.length := (List.getElem?_eq_some_iff.mp h).1

theorem rounds_set_self {left rest : List (SubscriptionId × α)} (h : r.rounds[n]? = some left) :
    (r.rounds.set n rest)[n]? = some rest := List.getElem?_set_self (lt_of_round h)

theorem calledIn_single_of_ne {answer : RegistryAnswer α} (hc : c ≠ .goOn n) :
    calledIn n [(c, answer)] = [] := by
  cases c with
  | subscribe | unsubscribe | notify => rfl
  | goOn m =>
    have hmn : m ≠ n := fun h => hc (h ▸ rfl)
    cases answer with
    | called id callback => simp [calledIn, hmn]
    | subscribed | unsubscribed | begun | through | unknown => rfl

/-- Who is called by a step, and who is still to be called after it, was to be called. -/
theorem calledIn_perform (hn : n < r.rounds.length) (c : RegistryCall α) :
    calledIn n [(c, (r.perform c).1)] ++ (r.perform c).2.due n = r.due n := by
  by_cases hc : c = .goOn n
  · subst hc
    obtain ⟨left, hleft⟩ : ∃ left, r.rounds[n]? = some left := ⟨_, List.getElem?_eq_getElem hn⟩
    cases left with
    | nil =>
      rw [perform_goOn_nil hleft]
      rfl
    | cons e rest =>
      rw [perform_goOn_cons hleft, due_of_some hleft, due_of_some (rounds_set_self hleft)]
      simp [calledIn]
  · rw [calledIn_single_of_ne hc, due, rounds_perform_of_ne hn hc]
    rfl

/-- **A notification calls those that it noted, in order**: who was called by some calls, and
who is still to be called after them, was to be called. -/
theorem calledIn_run (calls : List (RegistryCall α)) : ∀ r : Registry α, n < r.rounds.length →
    calledIn n (answered perform r calls) ++ (runOps perform r calls).2.due n = r.due n := by
  induction calls with
  | nil => exact fun r _ => rfl
  | cons c calls ih =>
    intro r hn
    rw [answered_cons, calledIn_cons, runOps_cons, List.append_assoc,
      ih _ (Nat.lt_of_lt_of_le hn (r.rounds_perform_le c)), calledIn_perform hn c]

/-- A notification that is answered about is under way. -/
theorem lt_of_mem_answered {answer : RegistryAnswer α} (hanswer : answer ≠ .unknown)
    (calls : List (RegistryCall α)) : ∀ r : Registry α,
    (.goOn n, answer) ∈ answered perform r calls →
    n < (runOps perform r calls).2.rounds.length := by
  induction calls with
  | nil => exact fun r h => absurd h List.not_mem_nil
  | cons c calls ih =>
    intro r h
    rw [answered_cons, List.mem_cons] at h
    rcases h with h | h
    · obtain ⟨rfl, rfl⟩ := Prod.mk.inj h
      refine Nat.lt_of_lt_of_le ?_ (rounds_run_le (.goOn n :: calls) r)
      rw [perform] at hanswer
      split at hanswer
      · next hround => exact lt_of_round hround
      · next hround => exact lt_of_round hround
      · exact absurd rfl hanswer
    · exact ih _ h

/-- Nobody is called by a notification that has not begun. -/
theorem calledIn_of_le (calls : List (RegistryCall α)) (r : Registry α)
    (hn : (runOps perform r calls).2.rounds.length ≤ n) :
    calledIn n (answered perform r calls) = [] := by
  refine List.filterMap_eq_nil_iff.mpr fun e he => ?_
  obtain ⟨c, answer⟩ := e
  have hnone : calledIn n [(c, answer)] = [] := by
    by_cases hc : c = .goOn n
    · subst hc
      cases answer with
      | called id callback =>
        exact absurd (lt_of_mem_answered (fun h => by cases h) calls r he) (Nat.not_lt.mpr hn)
      | subscribed | unsubscribed | begun | through | unknown => rfl
    · exact calledIn_single_of_ne hc
  rw [calledIn, List.filterMap_cons, List.filterMap_nil] at hnone
  split at hnone
  · assumption
  · cases hnone

/-- A notification that is through has nobody left to call. -/
theorem due_of_through (calls : List (RegistryCall α)) : ∀ r : Registry α,
    (.goOn n, .through) ∈ answered perform r calls → n < r.rounds.length →
    (runOps perform r calls).2.due n = [] := by
  induction calls with
  | nil => exact fun r h _ => absurd h List.not_mem_nil
  | cons c calls ih =>
    intro r h hn
    rw [answered_cons, List.mem_cons] at h
    rcases h with h | h
    · obtain ⟨rfl, hthrough⟩ := Prod.mk.inj h
      have hnone : r.due n = [] := by
        rw [perform] at hthrough
        split at hthrough
        · cases hthrough
        · next hround => exact due_of_some hround
        · cases hthrough
      have hall := calledIn_run (.goOn n :: calls) r hn
      rw [hnone] at hall
      exact (List.append_eq_nil_iff.mp hall).2
    · rw [runOps_cons]
      exact ih _ h (Nat.lt_of_lt_of_le hn (r.rounds_perform_le c))

/-! ### Subscriptions -/

/-- A call keeps both files right. -/
theorem keeps_perform (h : r.subscriptions.Keeps roll) (c : RegistryCall α) :
    (r.perform c).2.subscriptions.Keeps (roll.after (c, (r.perform c).1)) := by
  cases c with
  | subscribe place callback => exact h.subscribe place callback
  | unsubscribe id => exact (h.unsubscribe id).2
  | notify => exact h
  | goOn n =>
    rw [perform]
    split
    · exact h
    · exact h
    · exact h

/-- **Both files describe the roll after any calls.** -/
theorem keeps_run (calls : List (RegistryCall α)) : ∀ {r : Registry α} {roll : Roll α},
    r.subscriptions.Keeps roll → (runOps perform r calls).2.subscriptions.Keeps
      ((answered perform r calls).foldl Roll.after roll) := by
  induction calls with
  | nil => exact fun h => h
  | cons c calls ih => exact fun h => ih (keeps_perform h c)

theorem timesMade_cons (id : SubscriptionId) (e : RegistryCall α × RegistryAnswer α)
    (story : List (RegistryCall α × RegistryAnswer α)) :
    timesMade id (e :: story) = timesMade id [e] + timesMade id story := by
  rw [← List.singleton_append, timesMade, List.countP_append]
  rfl

theorem timesEnded_cons (id : SubscriptionId) (e : RegistryCall α × RegistryAnswer α)
    (story : List (RegistryCall α × RegistryAnswer α)) :
    timesEnded id (e :: story) = timesEnded id [e] + timesEnded id story := by
  rw [← List.singleton_append, timesEnded, List.countP_append]
  rfl

/-- How many numbers were given out. -/
def given (r : Registry α) : Nat := r.subscriptions.ids.given

/-- A number that is given out is the next one. -/
theorem timesMade_perform (r : Registry α) (id : Nat) (c : RegistryCall α) :
    r.given ≤ (r.perform c).2.given ∧ timesMade id [(c, (r.perform c).1)] =
      if r.given < id ∧ id ≤ (r.perform c).2.given then 1 else 0 := by
  have hsame : ∀ r' : Registry α, r'.given = r.given →
      r.given ≤ r'.given ∧ 0 = if r.given < id ∧ id ≤ r'.given then 1 else 0 := by
    intro r' h
    rw [h, if_neg (by omega)]
    exact ⟨Nat.le_refl _, rfl⟩
  cases c with
  | subscribe place callback =>
    have hnext : (r.perform (.subscribe place callback)).2.given = r.given + 1 := rfl
    have hanswer : (r.perform (.subscribe place callback)).1 = .subscribed (r.given + 1) := rfl
    rw [hnext, hanswer]
    refine ⟨Nat.le_succ _, ?_⟩
    by_cases hid : r.given + 1 = id
    · rw [if_pos (by omega)]
      simp [timesMade, hid]
    · rw [if_neg (by omega)]
      simp [timesMade, hid]
  | unsubscribe j => exact hsame _ (congrArg Counter.given (r.subscriptions.ids_unsubscribe j))
  | notify => exact hsame _ rfl
  | goOn n =>
    rw [perform]
    split
    · exact hsame _ rfl
    · exact hsame _ rfl
    · exact hsame _ rfl

/-- Every number is given out once: those that are given out are the next ones. -/
theorem timesMade_run (id : Nat) (calls : List (RegistryCall α)) :
    ∀ r : Registry α, r.given ≤ (runOps perform r calls).2.given ∧
      timesMade id (answered perform r calls) =
        if r.given < id ∧ id ≤ (runOps perform r calls).2.given then 1 else 0 := by
  induction calls with
  | nil =>
    intro r
    refine ⟨Nat.le_refl _, ?_⟩
    rw [if_neg (fun h => Nat.lt_irrefl _ (Nat.lt_of_lt_of_le h.1 h.2))]
    rfl
  | cons c calls ih =>
    intro r
    obtain ⟨hle, hstep⟩ := r.timesMade_perform id c
    obtain ⟨hle', hrest⟩ := ih (r.perform c).2
    rw [answered_cons, timesMade_cons, runOps_cons, hstep, hrest]
    dsimp only
    refine ⟨Nat.le_trans hle hle', ?_⟩
    split <;> split <;> split <;> omega

theorem count_ids_without (roll : Roll α) (j id : SubscriptionId) :
    (roll.without j).ids.count id = if j = id then 0 else roll.ids.count id := by
  split
  · next h =>
    subst h
    exact List.count_eq_zero_of_not_mem (roll.notMem_ids_without j)
  · next h =>
    unfold Roll.ids Roll.without
    rw [List.count_eq_countP, List.count_eq_countP, List.countP_map, List.countP_map,
      List.countP_filter]
    refine List.countP_congr fun e _ => ?_
    simp only [Function.comp_apply, beq_iff_eq, Bool.and_eq_true, decide_eq_true_eq,
      and_iff_left_iff_imp]
    exact fun he hj => h (hj.symm.trans he)

/-- Who was on the roll or is put there by a call is ended by it, or on the roll after it. -/
theorem account_perform (h : r.subscriptions.Keeps roll) (id : SubscriptionId)
    (c : RegistryCall α) :
    roll.ids.count id + timesMade id [(c, (r.perform c).1)] =
      timesEnded id [(c, (r.perform c).1)] +
        (roll.after (c, (r.perform c).1)).ids.count id := by
  cases c with
  | subscribe place callback =>
    have hanswer : (r.perform (.subscribe place callback)).1 = .subscribed (r.given + 1) := rfl
    rw [hanswer]
    simp [timesMade, timesEnded, Roll.after, Roll.ids, List.count_cons]
  | unsubscribe j =>
    obtain ⟨hfound, _⟩ := h.unsubscribe j
    have hanswer : (r.perform (.unsubscribe j)).1 =
        .unsubscribed (r.subscriptions.unsubscribe j).1 := rfl
    have hafter : roll.after (.unsubscribe j, (r.perform (.unsubscribe j)).1) =
        roll.without j := rfl
    rw [hafter, count_ids_without, hanswer]
    have hnone : timesMade id [(RegistryCall.unsubscribe (α := α) j,
        RegistryAnswer.unsubscribed (r.subscriptions.unsubscribe j).1)] = 0 := rfl
    rw [hnone]
    cases hf : (r.subscriptions.unsubscribe j).1 with
    | true =>
      have hone : roll.ids.count j = 1 :=
        List.count_eq_one_of_mem h.nodup_ids (hfound.mp hf)
      by_cases hj : j = id
      · subst hj
        simp [timesEnded, hone]
      · simp [timesEnded, hj]
    | false =>
      have hno : j ∉ roll.ids := fun hm => by
        rw [hfound.mpr hm] at hf
        cases hf
      by_cases hj : j = id
      · subst hj
        simp [timesEnded, List.count_eq_zero_of_not_mem hno]
      · simp [timesEnded, hj]
  | notify => simp [timesMade, timesEnded, perform, Roll.after]
  | goOn n =>
    rw [perform]
    split
    · simp [timesMade, timesEnded, Roll.after]
    · simp [timesMade, timesEnded, Roll.after]
    · simp [timesMade, timesEnded, Roll.after]

/-- **Who was on the roll or is put there is ended, or stands**, whatever is asked. -/
theorem account_run (id : SubscriptionId) (calls : List (RegistryCall α)) :
    ∀ {r : Registry α} {roll : Roll α}, r.subscriptions.Keeps roll →
      roll.ids.count id + timesMade id (answered perform r calls) =
        timesEnded id (answered perform r calls) +
          (Roll.ids ((answered perform r calls).foldl Roll.after roll)).count id := by
  induction calls with
  | nil =>
    intro r roll _
    exact Nat.add_comm _ _
  | cons c calls ih =>
    intro r roll h
    have hstep := account_perform h id c
    have hrest := ih (keeps_perform h c)
    rw [answered_cons, timesMade_cons, timesEnded_cons, List.foldl_cons]
    omega

/-- A number that was given out and is not on the roll does not come back. -/
theorem notMem_ids_run (h : r.subscriptions.Keeps roll) (hgiven : id ≤ r.given)
    (hid : id ∉ roll.ids) (calls : List (RegistryCall α)) :
    id ∉ Roll.ids ((answered perform r calls).foldl Roll.after roll) := by
  have haccount := account_run id calls h
  rw [(timesMade_run id calls r).2, if_neg (fun h => Nat.not_lt.mpr hgiven h.1),
    List.count_eq_zero_of_not_mem hid] at haccount
  exact List.count_eq_zero.mp (Nat.eq_zero_of_add_eq_zero haccount.symm).2

/-- Somebody who ends a subscription after it was made is told so, if not somebody before
him: it is not on the roll any more. -/
theorem notMem_ids_of_unsubscribe {before after : List (RegistryCall α)}
    (hmade : timesMade id (answered perform (fresh (α := α)) before) = 1) :
    id ∉ (Roll.of (answered perform (fresh (α := α))
      (before ++ .unsubscribe id :: after))).ids := by
  let found := (runOps perform (fresh (α := α)) before).2
  have hkeeps : found.subscriptions.Keeps (Roll.of (answered perform fresh before)) :=
    keeps_run before Subscriptions.keeps_empty
  have hgiven : id ≤ (found.perform (.unsubscribe id)).2.given := by
    rw [(timesMade_run id before fresh).2] at hmade
    split at hmade
    · next hid => exact Nat.le_trans hid.2 (found.timesMade_perform id _).1
    · cases hmade
  rw [answered_append, answered_cons, Roll.of, List.foldl_append, List.foldl_cons]
  exact notMem_ids_run (keeps_perform hkeeps _) hgiven (Roll.notMem_ids_without _ id) after

/-- A notification in the middle of other calls calls those who are subscribed when it
begins. -/
theorem calledIn_of_notify (before after : List (RegistryCall α)) (place : Place) :
    let found := (runOps perform (fresh (α := α)) before).2
    let n := found.rounds.length
    let stood := found.subscriptions.subscribers place
    let story := answered perform (fresh (α := α)) (before ++ .notify place :: after)
    calledIn n story <+: stood ∧ ((.goOn n, .through) ∈ story → calledIn n story = stood) := by
  intro found n stood story
  let begun := (found.perform (.notify place)).2
  have hround : begun.rounds[n]? = some stood := List.getElem?_concat_length
  have hlt : n < begun.rounds.length := lt_of_round hround
  have hstory : story = answered perform fresh before ++
      (.notify place, .begun n) :: answered perform begun after := answered_append _ _ _ _
  have hcalled : calledIn n story = calledIn n (answered perform begun after) := by
    rw [hstory, calledIn_append, calledIn_of_le before fresh (Nat.le_refl _), calledIn_cons]
    rfl
  have hall := calledIn_run after begun hlt
  rw [due_of_some hround] at hall
  rw [hcalled]
  refine ⟨⟨_, hall⟩, fun hthrough => ?_⟩
  rw [hstory, List.mem_append, List.mem_cons] at hthrough
  rcases hthrough with hthrough | hthrough | hthrough
  · -- it had not begun before
    exact absurd (lt_of_mem_answered (fun h => by cases h) before fresh hthrough)
      (Nat.lt_irrefl _)
  · cases (Prod.mk.inj hthrough).1
  · rw [due_of_through after begun hthrough hlt, List.append_nil] at hall
    exact hall

/-! ### Notifying is beginning a notification and going on with it -/

/-- What a callback does in its turn: it is called, and asks what it likes. -/
def turn (does : Registry α → SubscriptionId → α → List (RegistryCall α)) (n : Nat)
    (r : Registry α) (id : SubscriptionId) (callback : α) : Registry α :=
  let called := (r.perform (.goOn n)).2
  (runOps perform called (does called id callback)).2

/-- The turns of those that a notification is still to call are calls one after another. -/
theorem exists_calls_turns {does : Registry α → SubscriptionId → α → List (RegistryCall α)}
    (hdoes : ∀ r id callback, .goOn n ∉ does r id callback)
    (left : List (SubscriptionId × α)) : ∀ r : Registry α, r.rounds[n]? = some left →
    ∃ calls, left.foldl (fun r e => turn does n r e.1 e.2) r = (runOps perform r calls).2 ∧
      calledIn n (answered perform r calls) = left ∧
      (runOps perform r calls).2.rounds[n]? = some [] := by
  induction left with
  | nil => exact fun r h => ⟨[], rfl, rfl, h⟩
  | cons e left ih =>
    intro r h
    -- the callback is called, asks what it likes, and the others follow
    let called := (r.perform (.goOn n)).2
    let asked := does called e.1 e.2
    have hcalled : called.rounds[n]? = some left := by
      show ((r.perform (.goOn n)).2).rounds[n]? = _
      rw [perform_goOn_cons h]
      exact rounds_set_self h
    have hasked : (runOps perform called asked).2.rounds[n]? = some left := by
      rw [rounds_run_of_notMem asked called (lt_of_round hcalled) (hdoes called e.1 e.2)]
      exact hcalled
    have hnobody : calledIn n (answered perform called asked) = [] := by
      have hall := calledIn_run asked called (lt_of_round hcalled)
      rw [due_of_some hcalled, due_of_some hasked] at hall
      exact List.append_left_eq_self.mp hall
    obtain ⟨calls, hfold, hthese, hend⟩ := ih _ hasked
    refine ⟨.goOn n :: (asked ++ calls), ?_, ?_, ?_⟩
    · rw [List.foldl_cons, runOps_cons, runOps_append]
      exact hfold
    · rw [answered_cons, calledIn_cons, answered_append, calledIn_append]
      show _ ++ (calledIn n (answered perform called asked) ++ _) = _
      rw [hnobody, hthese, perform_goOn_cons h]
      simp [calledIn]
    · rw [runOps_cons, runOps_append]
      exact hend

/-- **A notification is a sequence of calls**: it begins, and each callback has its turn, in
which it asks what it likes, also to begin other notifications and to go on with them.
Afterwards the notification is through. -/
theorem exists_calls_notify (r : Registry α) (place : Place)
    (does : Registry α → SubscriptionId → α → List (RegistryCall α))
    (hdoes : ∀ r' id callback, .goOn r.rounds.length ∉ does r' id callback) :
    let n := r.rounds.length
    let called := r.subscriptions.subscribers place
    ∃ calls, let last := (runOps perform r (.notify place :: calls)).2
      r.subscriptions.notify place (turn does n) (r.perform (.notify place)).2 =
          (called.length, last) ∧
        calledIn n (answered perform r (.notify place :: calls)) = called ∧
        last.perform (.goOn n) = (.through, last) := by
  intro n called
  have hbegun : (r.perform (.notify place)).2.rounds[n]? = some called :=
    List.getElem?_concat_length
  obtain ⟨calls, hturns, hcalled, hend⟩ := exists_calls_turns hdoes called _ hbegun
  refine ⟨calls, ?_, ?_, ?_⟩
  · rw [Subscriptions.notify]
    exact Prod.ext rfl hturns
  · rw [answered_cons, calledIn_cons]
    exact hcalled
  · exact perform_goOn_nil hend

/-! ### The whole account -/

/-- Whoever notes those that `notify` calls notes the subscribers, whatever they do. -/
theorem called_notify {β : Type} (s : Subscriptions α) (place : Place)
    (call : β → SubscriptionId → α → β) (state : β) :
    s.notify place
        (fun st id callback => (st.1 ++ [(id, callback)], call st.2 id callback)) ([], state) =
      ((s.subscribers place).length, s.subscribers place, (s.notify place call state).2) := by
  have called : ∀ (left noted : List (SubscriptionId × α)) (state : β),
      left.foldl (fun st e => (st.1 ++ [(e.1, e.2)], call st.2 e.1 e.2)) (noted, state) =
        (noted ++ left, left.foldl (fun st e => call st e.1 e.2) state) := by
    intro left
    induction left with
    | nil =>
      intro noted state
      rw [List.append_nil]
      rfl
    | cons e left ih =>
      intro noted state
      rw [List.foldl_cons, ih, List.append_assoc]
      rfl
  rw [Subscriptions.notify]
  exact Prod.ext rfl (called (s.subscribers place) [] state)

/-- **What holds of the subscriptions, and of every notification**, whatever is asked and in
whatever order, by callbacks in the middle of a notification or by anybody else.

Both files name the same subscriptions: those that were made and have not been ended.  Each
is there once, in the order in which they were made, and no place has an empty list.

A number is given to one subscription at most.  Nobody is told twice that the subscription
with it is ended, nor before it was made; and somebody is told so when he ends it after it
was made.

A notification calls those who are subscribed to its place when it begins, each once, in the
order in which they subscribed, and nobody else; when it is through, it has called them all.
Those are the ones that `notify` calls, whatever they do to the subscriptions meanwhile. -/
theorem keeps_the_roll (calls : List (RegistryCall α)) :
    let subs := (runOps perform fresh calls).2.subscriptions
    let story := answered perform fresh calls
    let roll := Roll.of story
    ((∀ id place, subs.byId.find? id = some place ↔
          ∃ callback, (id, callback) ∈ subs.subscribers place) ∧
      (∀ place, subs.subscribers place = roll.atPlace place ∧
        ((subs.subscribers place).map Prod.fst).Pairwise (· < ·) ∧
        subs.byPlace.find? place ≠ some []) ∧
      subs.byId.keys = roll.ids ∧ subs.byId.keys.Nodup ∧ subs.byPlace.keys.Nodup) ∧
    (∀ id, timesEnded id story ≤ timesMade id story ∧ timesMade id story ≤ 1 ∧
      ∀ before after, calls = before ++ .unsubscribe id :: after →
        timesMade id (answered perform fresh before) = 1 → timesEnded id story = 1) ∧
    (∀ before place after n, calls = before ++ .notify place :: after →
      ((runOps perform fresh before).2.perform (.notify place)).1 = .begun n →
      let stood := (Roll.of (answered perform fresh before)).atPlace place
      calledIn n story <+: stood ∧ (stood.map Prod.fst).Pairwise (· < ·) ∧
        ((.goOn n, .through) ∈ story → calledIn n story = stood)) ∧
    ∀ (place : Place) (β : Type) (call : β → SubscriptionId → α → β) (state : β),
      subs.notify place
          (fun st id callback => (st.1 ++ [(id, callback)], call st.2 id callback)) ([], state) =
        ((roll.atPlace place).length, roll.atPlace place, (subs.notify place call state).2) := by
  intro subs story roll
  have hkeeps : ∀ calls : List (RegistryCall α),
      (runOps perform fresh calls).2.subscriptions.Keeps (Roll.of (answered perform fresh calls)) :=
    fun calls => keeps_run calls Subscriptions.keeps_empty
  have h : subs.Keeps roll := hkeeps calls
  refine ⟨⟨h.find?_byId_iff, fun place => ⟨h.byPlace place, h.subscribers_inOrder place,
    h.noneEmpty place⟩, h.keys_byId, h.keys_byId ▸ h.nodup_ids, h.places⟩, ?_, ?_, ?_⟩
  · intro id
    have hmade : timesMade id story ≤ 1 := by
      rw [(timesMade_run id calls fresh).2]
      split
      · exact Nat.le_refl _
      · exact Nat.zero_le _
    have haccount : timesMade id story = timesEnded id story + roll.ids.count id := by
      have := account_run id calls (r := fresh) Subscriptions.keeps_empty
      rwa [Roll.ids, List.map_nil, List.count_nil, Nat.zero_add] at this
    refine ⟨by omega, hmade, ?_⟩
    rintro before after rfl hbefore
    have hgone : roll.ids.count id = 0 :=
      List.count_eq_zero_of_not_mem (notMem_ids_of_unsubscribe hbefore)
    have hmore : 1 ≤ timesMade id story := by
      show 1 ≤ timesMade id (answered perform fresh (before ++ _))
      rw [answered_append, ← hbefore, timesMade, timesMade, List.countP_append]
      exact Nat.le_add_right _ _
    omega
  · rintro before place after n rfl hbegun stood
    obtain rfl : (runOps perform fresh before).2.rounds.length = n :=
      RegistryAnswer.begun.inj hbegun
    have hstood : (runOps perform fresh before).2.subscriptions.subscribers place = stood :=
      (hkeeps before).byPlace place
    obtain ⟨hfront, hthrough⟩ := calledIn_of_notify before after place
    rw [hstood] at hfront hthrough
    exact ⟨hfront, hstood ▸ (hkeeps before).subscribers_inOrder place, hthrough⟩
  · intro place β call state
    rw [called_notify, h.byPlace]

/-- The first of three callbacks unsubscribes itself and the second one, subscribes a fourth
one and notifies the same place.  The second one is called all the same, as it stood when the
first notification began; the fourth one only by the other notification. -/
theorem keeps_the_roll_reentered :
    let here : Place := (.rootController, .root)
    let before : List (RegistryCall Nat) :=
      [.subscribe here 10, .subscribe here 20, .subscribe here 30]
    let within : List (RegistryCall Nat) := [.subscribe here 40, .notify here, .goOn 1, .goOn 1,
      .goOn 1, .goOn 0, .goOn 0, .goOn 0, .unsubscribe 1]
    let story := answered perform fresh
      (before ++ .notify here :: .goOn 0 :: .unsubscribe 1 :: .unsubscribe 2 :: within)
    (timesMade 1 (answered perform fresh (before ++ [.notify here, .goOn 0])) = 1 ∧
        timesEnded 1 story = 1) ∧
      ((.goOn 0, .through) ∈ story ∧ calledIn 0 story = [(1, 10), (2, 20), (3, 30)]) ∧
      calledIn 1 story = [(3, 30), (4, 40)] := by
  intro here before within story
  obtain ⟨_, hended, hcalled, _⟩ := keeps_the_roll
    (before ++ .notify here :: .goOn 0 :: .unsubscribe 1 :: .unsubscribe 2 :: within)
  have hmade : timesMade 1 (answered perform fresh (before ++ [.notify here, .goOn 0])) = 1 := by
    decide
  have hthrough : (.goOn 0, .through) ∈ story := by decide
  have hfirst := (hcalled before here
    (.goOn 0 :: .unsubscribe 1 :: .unsubscribe 2 :: within) 0 rfl (by decide)).2.2 hthrough
  have hsecond := (hcalled (before ++ .notify here :: .goOn 0 :: .unsubscribe 1 ::
    .unsubscribe 2 :: [.subscribe here 40]) here _ 1 rfl (by decide)).2.2 (by decide)
  exact ⟨⟨hmade, (hended 1).2.2 (before ++ [.notify here, .goOn 0])
    (.unsubscribe 2 :: within) rfl hmade⟩, ⟨hthrough, hfirst.trans (by decide)⟩,
    hsecond.trans (by decide)⟩

end Registry

end ZoneBus
