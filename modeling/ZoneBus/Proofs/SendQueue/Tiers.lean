import ZoneBus.Proofs.SendQueue.Items

/-!
# The tiers of a send queue

Items come in at the end of the tier of their priority and go out at the front of
it, so what a queue has beyond an earlier one is what was pushed in between, as
long as nothing was popped.

## Main definitions

* `SendQueue.tier`, `SendQueue.ofPriority` — the items of one priority, in a list and in a
  queue.
* `SendQueue.Extends` — these items came in, each at the end of its tier.
* `SendQueue.Sheds` — nothing came in.
* `SendQueue.added` — what a queue has beyond an earlier one.

## Main results

* `SendQueue.extends_push` — a push puts one item in.
* `SendQueue.Extends.added_perm`, `tier_added`, `Sheds.added` — what came in is what was added.
* `SendQueue.tiers_of_tryPop` — where a pop takes from.
-/

namespace ZoneBus

namespace SendQueue

variable {α : Type} {q q' q'' : SendQueue α} {items more : List (Priority × α)}

/-- The items of one priority. -/
def tier (priority : Priority) (items : List (Priority × α)) : List α :=
  (items.filter fun e => decide (e.1 = priority)).map Prod.snd

/-- The items of a queue that have one priority, oldest first. -/
def ofPriority (q : SendQueue α) : Priority → List α
  | .high => q.high
  | .low => q.low

/-- These items came in, each at the end of its tier. -/
def Extends (q q' : SendQueue α) (items : List (Priority × α)) : Prop :=
  q'.high = q.high ++ tier .high items ∧ q'.low = q.low ++ tier .low items

/-- Nothing came in. -/
def Sheds (q q' : SendQueue α) : Prop := q'.high.Sublist q.high ∧ q'.low.Sublist q.low

/-- What a queue has beyond an earlier one. -/
def added (q q' : SendQueue α) : List (Priority × α) :=
  (q'.high.drop q.high.length).map (Prod.mk .high) ++ (q'.low.drop q.low.length).map (Prod.mk .low)

theorem tier_append (priority : Priority) (items more : List (Priority × α)) :
    tier priority (items ++ more) = tier priority items ++ tier priority more := by
  unfold tier
  rw [List.filter_append, List.map_append]

@[simp] theorem tier_nil (p : Priority) : tier p ([] : List (Priority × α)) = [] := rfl

theorem tier_cons (p : Priority) (e : Priority × α) (items : List (Priority × α)) :
    tier p (e :: items) = if e.1 = p then e.2 :: tier p items else tier p items := by
  by_cases h : e.1 = p <;> simp [tier, h]

/-- A tier is empty when no item has its priority. -/
theorem tier_eq_nil_iff {p : Priority} {items : List (Priority × α)} :
    tier p items = [] ↔ ∀ e ∈ items, e.1 ≠ p := by
  simp [tier]

theorem mem_tier {p : Priority} {a : α} : a ∈ tier p items ↔ (p, a) ∈ items := by
  rw [tier, List.mem_map]
  constructor
  · rintro ⟨⟨p', b⟩, he, rfl⟩
    obtain ⟨he, hp⟩ := List.mem_filter.mp he
    exact of_decide_eq_true hp ▸ he
  · intro he
    exact ⟨(p, a), List.mem_filter.mpr ⟨he, decide_eq_true rfl⟩, rfl⟩

/-- The items of one tier have its priority, and no other. -/
theorem tier_map_mk (p p' : Priority) (more : List α) :
    tier p (more.map (Prod.mk p')) = if p' = p then more else [] := by
  split
  · next h =>
    rw [tier, List.filter_eq_self.mpr, List.map_map]
    · exact List.map_id _
    · intro e he
      obtain ⟨b, _, rfl⟩ := List.mem_map.mp he
      exact decide_eq_true h
  · next h =>
    rw [tier_eq_nil_iff]
    intro e he
    obtain ⟨b, _, rfl⟩ := List.mem_map.mp he
    exact h

theorem extends_of_eq (hhigh : q'.high = q.high) (hlow : q'.low = q.low) : Extends q q' [] :=
  ⟨by rw [hhigh]; exact (List.append_nil _).symm, by rw [hlow]; exact (List.append_nil _).symm⟩

theorem Extends.trans (h : Extends q q' items) (h' : Extends q' q'' more) :
    Extends q q'' (items ++ more) := by
  obtain ⟨hhigh, hlow⟩ := h
  obtain ⟨hhigh', hlow'⟩ := h'
  refine ⟨?_, ?_⟩
  · rw [hhigh', hhigh, tier_append, List.append_assoc]
  · rw [hlow', hlow, tier_append, List.append_assoc]

theorem high_wakeOne (q : SendQueue α) : q.wakeOne.high = q.high := by
  unfold wakeOne
  split <;> rfl

theorem low_wakeOne (q : SendQueue α) : q.wakeOne.low = q.low := by
  unfold wakeOne
  split <;> rfl

/-- A push puts one item in. -/
theorem extends_push {priority : Priority} {a : α} (h : q.push priority a = some q') :
    Extends q q' [(priority, a)] := by
  rw [push.eq_def] at h
  split at h
  · cases h
  · cases priority with
    | high =>
      obtain rfl := Option.some.inj h
      refine ⟨?_, ?_⟩
      · rw [high_wakeOne]; rfl
      · rw [low_wakeOne]; exact (List.append_nil _).symm
    | low =>
      obtain rfl := Option.some.inj h
      refine ⟨?_, ?_⟩
      · rw [high_wakeOne]; exact (List.append_nil _).symm
      · rw [low_wakeOne]; rfl

/-- Every item is in one of the two tiers. -/
theorem filter_tiers_perm (items : List (Priority × α)) :
    ((items.filter fun e => decide (e.1 = .high)) ++
      items.filter fun e => decide (e.1 = .low)).Perm items := by
  have hlow : ∀ e ∈ items, decide (e.1 = Priority.low) = !decide (e.1 = Priority.high) := by
    intro e _
    cases e.1 <;> rfl
  rw [List.filter_congr hlow]
  exact List.filter_append_perm _ items

theorem map_tier (priority : Priority) (items : List (Priority × α)) :
    (tier priority items).map (Prod.mk priority) =
      items.filter fun e => decide (e.1 = priority) := by
  unfold tier
  rw [List.map_map]
  refine (List.map_congr_left fun e he => ?_).trans (List.map_id _)
  have hp := of_decide_eq_true (List.mem_filter.mp he).2
  simp [← hp]

/-- In each tier, what came in is what was added. -/
theorem Extends.tier_added (h : Extends q q' items) (p : Priority) :
    tier p (added q q') = tier p items := by
  rw [added, h.1, h.2, List.drop_left, List.drop_left, tier_append, tier_map_mk, tier_map_mk]
  cases p with
  | high => exact List.append_nil _
  | low => exact List.nil_append _

theorem Extends.ofPriority (h : Extends q q' items) (p : Priority) :
    q'.ofPriority p = q.ofPriority p ++ tier p items := by
  cases p with
  | high => exact h.1
  | low => exact h.2

/-- What came in is what was added. -/
theorem Extends.added_perm (h : Extends q q' items) : (added q q').Perm items := by
  obtain ⟨hhigh, hlow⟩ := h
  unfold added
  rw [hhigh, hlow, List.drop_left, List.drop_left, map_tier, map_tier]
  exact filter_tiers_perm items

theorem Extends.toList_perm (h : Extends q q' items) :
    q'.toList.Perm (items.map Prod.snd ++ q.toList) := by
  obtain ⟨hhigh, hlow⟩ := h
  have hitems := (filter_tiers_perm items).map Prod.snd
  rw [List.map_append] at hitems
  refine List.Perm.trans ?_ (List.Perm.append_right _ hitems)
  unfold toList
  rw [hhigh, hlow]
  -- the new items of both tiers go to the front
  refine (List.perm_append_comm.append_right _).trans ?_
  rw [List.append_assoc, List.append_assoc]
  refine List.Perm.append_left _ ?_
  rw [← List.append_assoc]
  exact List.perm_append_comm

theorem Extends.length_le (h : Extends q q' items) : q.toList.length ≤ q'.toList.length := by
  rw [h.toList_perm.length_eq, List.length_append]
  exact Nat.le_add_left _ _

/-! ### Queues that items go out of -/

namespace Sheds

theorem refl (q : SendQueue α) : Sheds q q := ⟨List.Sublist.refl _, List.Sublist.refl _⟩

theorem trans (h : Sheds q q') (h' : Sheds q' q'') : Sheds q q'' :=
  ⟨h'.1.trans h.1, h'.2.trans h.2⟩

/-- Nothing was added. -/
theorem added (h : Sheds q q') : added q q' = [] := by
  obtain ⟨hhigh, hlow⟩ := h
  unfold SendQueue.added
  rw [List.drop_eq_nil_of_le hhigh.length_le, List.drop_eq_nil_of_le hlow.length_le]
  rfl

end Sheds

@[simp] theorem added_self (q : SendQueue α) : added q q = [] := (Sheds.refl q).added

/-- An item is taken from the front of the first tier, or, when that is empty, of the
second. -/
theorem tiers_of_tryPop {a : α} (h : q.tryPop = some (a, q')) :
    (q.high = a :: q'.high ∧ q'.low = q.low) ∨
      (q.high = [] ∧ q'.high = [] ∧ q.low = a :: q'.low) := by
  rw [tryPop] at h
  split at h
  · next hhigh =>
    obtain ⟨rfl, rfl⟩ := Prod.mk.inj (Option.some.inj h)
    exact Or.inl ⟨hhigh, rfl⟩
  · next hhigh hlow =>
    obtain ⟨rfl, rfl⟩ := Prod.mk.inj (Option.some.inj h)
    exact Or.inr ⟨hhigh, hhigh, hlow⟩
  · cases h

/-- A pop takes from one tier and leaves the other. -/
theorem sheds_of_tryPop {a : α} (h : q.tryPop = some (a, q')) : Sheds q q' := by
  rcases tiers_of_tryPop h with ⟨hhigh, hlow⟩ | ⟨hhigh, hhigh', hlow⟩
  · refine ⟨?_, by rw [hlow]⟩
    rw [hhigh]
    exact List.sublist_cons_self _ _
  · refine ⟨by rw [hhigh, hhigh'], ?_⟩
    rw [hlow]
    exact List.sublist_cons_self _ _

theorem sheds_close (q : SendQueue α) : Sheds q q.close.2 := by
  unfold close wakeAll
  cases q.waiter <;> exact ⟨List.nil_sublist _, List.nil_sublist _⟩

end SendQueue

end ZoneBus
