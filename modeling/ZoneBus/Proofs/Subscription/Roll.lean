import ZoneBus.Proofs.Directory.Keys
import ZoneBus.Subscription

/-!
# The roll of the subscribers

Subscriptions are filed twice, by place and by number.  Both files describe one list: the
subscriptions that were made and have not been ended, in the order in which they were made.
A new one comes at the end of it, under a number that is higher than all before; one that is
ended is struck out.

## Main definitions

* `Subscriber`, `Roll` — a subscription, and the list of all.
* `Roll.atPlace` — those of one place.
* `Subscriptions.Keeps` — both files describe the roll.

## Main results

* `Subscriptions.subscribers_subscribe`, `subscribers_unsubscribe` — who is called for each
  place after a change.
* `Subscriptions.Keeps.subscribe`, `Keeps.unsubscribe` — changes keep both files right, and
  ending a subscription tells whether it stood.
* `Subscriptions.Keeps.find?_byId_iff` — **both files name the same subscriptions.**
-/

namespace ZoneBus

variable {α : Type}

/-- A subscription. -/
structure Subscriber (α : Type) where
  /-- Its number. -/
  id : SubscriptionId
  /-- What it is for. -/
  place : Place
  /-- What is called. -/
  callback : α

/-- The subscriptions that stand, in the order in which they were made. -/
abbrev Roll (α : Type) := List (Subscriber α)

namespace Roll

/-- The numbers on a roll. -/
def ids (roll : Roll α) : List SubscriptionId := roll.map Subscriber.id

/-- The subscriptions to one place. -/
def atPlace (roll : Roll α) (place : Place) : List (SubscriptionId × α) :=
  (roll.filter fun e => decide (e.place = place)).map fun e => (e.id, e.callback)

/-- The roll with one subscription struck out. -/
def without (roll : Roll α) (id : SubscriptionId) : Roll α :=
  roll.filter fun e => decide (e.id ≠ id)

theorem mem_ids_iff {roll : Roll α} {id : SubscriptionId} :
    id ∈ roll.ids ↔ ∃ e ∈ roll, e.id = id := List.mem_map

theorem mem_atPlace_iff {roll : Roll α} {place : Place} {id : SubscriptionId} {callback : α} :
    (id, callback) ∈ roll.atPlace place ↔ ⟨id, place, callback⟩ ∈ roll := by
  constructor
  · intro h
    obtain ⟨e, hfiltered, heq⟩ := List.mem_map.mp h
    obtain ⟨he, hp⟩ := List.mem_filter.mp hfiltered
    obtain ⟨rfl, rfl⟩ := Prod.mk.inj heq
    obtain rfl : e.place = place := of_decide_eq_true hp
    exact he
  · intro h
    exact List.mem_map.mpr ⟨_, List.mem_filter.mpr ⟨h, decide_eq_true rfl⟩, rfl⟩

theorem atPlace_append (roll more : Roll α) (place : Place) :
    Roll.atPlace (roll ++ more) place = roll.atPlace place ++ Roll.atPlace more place := by
  unfold Roll.atPlace
  rw [List.filter_append, List.map_append]

theorem atPlace_singleton (e : Subscriber α) (place : Place) :
    Roll.atPlace [e] place = if e.place = place then [(e.id, e.callback)] else [] := by
  unfold Roll.atPlace
  by_cases h : e.place = place <;> simp [h]

/-- Who is struck out is struck out of the place. -/
theorem atPlace_without (roll : Roll α) (id : SubscriptionId) (place : Place) :
    (roll.without id).atPlace place = (roll.atPlace place).filter fun e => decide (e.1 ≠ id) := by
  unfold Roll.atPlace without
  rw [List.filter_filter, List.filter_map, List.filter_filter]
  exact congrArg _ (List.filter_congr fun e _ => Bool.and_comm _ _)

/-- The numbers of a place stand in the order of the roll. -/
theorem ids_atPlace_sublist (roll : Roll α) (place : Place) :
    ((roll.atPlace place).map Prod.fst).Sublist roll.ids := by
  unfold Roll.atPlace ids
  rw [List.map_map]
  exact List.filter_sublist.map Subscriber.id

theorem notMem_ids_without (roll : Roll α) (id : SubscriptionId) :
    id ∉ (roll.without id).ids := by
  rw [mem_ids_iff]
  rintro ⟨e, he, hid⟩
  exact of_decide_eq_true (List.mem_filter.mp he).2 hid

/-- Striking out a number that is not there changes nothing. -/
theorem without_of_notMem {roll : Roll α} {id : SubscriptionId} (h : id ∉ roll.ids) :
    roll.without id = roll :=
  List.filter_eq_self.mpr fun e he =>
    decide_eq_true fun hid => h (mem_ids_iff.mpr ⟨e, he, hid⟩)

end Roll

namespace Subscriptions

variable {s : Subscriptions α} {roll : Roll α}

/-! ### Who is called after a change -/

theorem subscribers_subscribe (s : Subscriptions α) (place here : Place) (callback : α) :
    (s.subscribe place callback).2.subscribers here =
      if place = here then s.subscribers place ++ [((s.subscribe place callback).1, callback)]
      else s.subscribers here := by
  rw [subscribers]
  show ((s.byPlace.put place _).find? here).getD [] = _
  rw [Directory.find?_put]
  split <;> rfl

theorem ids_unsubscribe (s : Subscriptions α) (id : SubscriptionId) :
    (s.unsubscribe id).2.ids = s.ids := by
  rw [unsubscribe]
  split <;> rfl

/-- Only the place of a subscription that ends has other subscribers then. -/
theorem subscribers_unsubscribe {id : SubscriptionId} {place : Place}
    (h : s.byId.find? id = some place) (here : Place) :
    (s.unsubscribe id).2.subscribers here =
      if place = here then (s.subscribers place).filter fun e => decide (e.1 ≠ id)
      else s.subscribers here := by
  rw [unsubscribe, h]
  dsimp only
  generalize (s.subscribers place).filter (fun e => decide (e.1 ≠ id)) = rest
  rw [subscribers]
  dsimp only
  split
  · next hempty =>
    rw [Directory.find?_erase, List.isEmpty_iff.mp hempty]
    split <;> rfl
  · rw [Directory.find?_put]
    split <;> rfl

/-! ### Both files -/

/-- Both files describe the roll, and it is in the order of the numbers. -/
structure Keeps (s : Subscriptions α) (roll : Roll α) : Prop where
  /-- The file by number names the place of every subscription. -/
  byId : s.byId.entries = roll.map fun e => (e.id, e.place)
  /-- The file by place lists the subscriptions of every place. -/
  byPlace : ∀ place, s.subscribers place = roll.atPlace place
  /-- It has no empty list. -/
  noneEmpty : ∀ place, s.byPlace.find? place ≠ some []
  /-- It names every place once. -/
  places : s.byPlace.keys.Nodup
  /-- Who subscribed later has a higher number. -/
  inOrder : roll.ids.Pairwise (· < ·)
  /-- The numbers were given out. -/
  given : ∀ id ∈ roll.ids, id ≤ s.ids.given

theorem keeps_empty : (Subscriptions.empty : Subscriptions α).Keeps [] where
  byId := rfl
  byPlace := fun _ => rfl
  noneEmpty := fun _ h => by cases h
  places := List.nodup_nil
  inOrder := List.Pairwise.nil
  given := List.forall_mem_nil _

namespace Keeps

/-- The file by number has the numbers of the roll. -/
theorem keys_byId (h : s.Keeps roll) : s.byId.keys = roll.ids := by
  rw [Directory.keys, h.byId, List.map_map]
  rfl

theorem nodup_ids (h : s.Keeps roll) : roll.ids.Nodup := h.inOrder.imp Nat.ne_of_lt

/-- What stands is found by its number. -/
theorem find?_byId (h : s.Keeps roll) {e : Subscriber α} (he : e ∈ roll) :
    s.byId.find? e.id = some e.place := by
  refine Directory.find?_eq_some_of_mem (h.keys_byId ▸ h.nodup_ids) ?_
  rw [h.byId]
  exact List.mem_map_of_mem he

theorem mem_of_find?_byId (h : s.Keeps roll) {id : SubscriptionId} {place : Place}
    (hf : s.byId.find? id = some place) : ∃ callback, ⟨id, place, callback⟩ ∈ roll := by
  have hm := Directory.mem_entries_of_find? hf
  rw [h.byId] at hm
  obtain ⟨e, he, heq⟩ := List.mem_map.mp hm
  obtain ⟨rfl, rfl⟩ := Prod.mk.inj heq
  exact ⟨e.callback, he⟩

/-- **Both files name the same subscriptions.** -/
theorem find?_byId_iff (h : s.Keeps roll) (id : SubscriptionId) (place : Place) :
    s.byId.find? id = some place ↔ ∃ callback, (id, callback) ∈ s.subscribers place := by
  rw [h.byPlace]
  constructor
  · intro hf
    obtain ⟨callback, he⟩ := h.mem_of_find?_byId hf
    exact ⟨callback, Roll.mem_atPlace_iff.mpr he⟩
  · rintro ⟨callback, he⟩
    exact h.find?_byId (Roll.mem_atPlace_iff.mp he)

/-- The subscribers of a place stand in the order in which they subscribed, each once. -/
theorem subscribers_inOrder (h : s.Keeps roll) (place : Place) :
    ((s.subscribers place).map Prod.fst).Pairwise (· < ·) := by
  rw [h.byPlace]
  exact h.inOrder.sublist (roll.ids_atPlace_sublist place)

/-- A new subscription comes at the end of the roll. -/
theorem subscribe (h : s.Keeps roll) (place : Place) (callback : α) :
    (s.subscribe place callback).2.Keeps
      (roll ++ [⟨(s.subscribe place callback).1, place, callback⟩]) := by
  have hids : Roll.ids (roll ++ [⟨(s.subscribe place callback).1, place, callback⟩]) =
      roll.ids ++ [s.ids.given + 1] := List.map_append
  have hlt : ∀ id ∈ roll.ids, id < s.ids.given + 1 :=
    fun id hid => Nat.lt_succ_of_le (h.given id hid)
  have hnew : s.ids.given + 1 ∉ s.byId.keys := by
    rw [h.keys_byId]
    intro hm
    exact Nat.lt_irrefl _ (hlt _ hm)
  constructor
  case byId =>
    show (s.byId.put (s.ids.given + 1) place).entries = _
    rw [Directory.put, Directory.putIn_of_notMem hnew, h.byId, List.map_append]
    rfl
  case byPlace =>
    intro here
    rw [subscribers_subscribe, Roll.atPlace_append, Roll.atPlace_singleton, h.byPlace, h.byPlace]
    split
    · next he => rw [he]
    · exact (List.append_nil _).symm
  case noneEmpty =>
    intro here
    show (s.byPlace.put place _).find? here ≠ some []
    rw [Directory.find?_put]
    split
    · exact fun he => List.cons_ne_nil _ _ (List.append_eq_nil_iff.mp (Option.some.inj he)).2
    · exact h.noneEmpty here
  case places => exact Directory.nodup_keys_put h.places place _
  case inOrder =>
    rw [hids, List.pairwise_append]
    refine ⟨h.inOrder, List.pairwise_singleton _ _, fun id hid j hj => ?_⟩
    rw [List.mem_singleton.mp hj]
    exact hlt id hid
  case given =>
    intro id hid
    rw [hids, List.mem_append, List.mem_singleton] at hid
    show id ≤ s.ids.given + 1
    rcases hid with hid | rfl
    · exact Nat.le_of_lt (hlt id hid)
    · exact Nat.le_refl _

/-- A subscription that stands is ended. -/
theorem unsubscribe_of_mem (h : s.Keeps roll) {e : Subscriber α} (he : e ∈ roll) :
    (s.unsubscribe e.id).1 = true ∧ (s.unsubscribe e.id).2.Keeps (roll.without e.id) := by
  have hfound := h.find?_byId he
  have hsub : (roll.without e.id).ids.Sublist roll.ids := List.filter_sublist.map Subscriber.id
  refine ⟨by rw [unsubscribe, hfound], ?_⟩
  constructor
  case byId =>
    rw [unsubscribe, hfound]
    show (s.byId.entries.filter _) = _
    rw [h.byId, Roll.without, List.filter_map]
    rfl
  case byPlace =>
    intro here
    rw [subscribers_unsubscribe hfound, Roll.atPlace_without, h.byPlace, h.byPlace]
    split
    · next hp => rw [hp]
    · -- nobody at another place has this number
      next hp =>
      refine (List.filter_eq_self.mpr fun x hx => ?_).symm
      refine decide_eq_true (p := x.1 ≠ e.id) fun hid => hp ?_
      obtain ⟨id, callback⟩ := x
      obtain rfl : id = e.id := hid
      have hother : s.byId.find? e.id = some here := h.find?_byId (Roll.mem_atPlace_iff.mp hx)
      rw [hfound] at hother
      exact Option.some.inj hother
  case noneEmpty =>
    intro here
    rw [unsubscribe, hfound]
    dsimp only
    split
    · rw [Directory.find?_erase]
      split
      · exact fun hn => by cases hn
      · exact h.noneEmpty here
    · next hne =>
      rw [Directory.find?_put]
      split
      · intro hn
        rw [Option.some.inj hn] at hne
        exact hne rfl
      · exact h.noneEmpty here
  case places =>
    rw [unsubscribe, hfound]
    dsimp only
    split
    · exact Directory.nodup_keys_erase h.places _
    · exact Directory.nodup_keys_put h.places _ _
  case inOrder => exact h.inOrder.sublist hsub
  case given =>
    intro id hid
    rw [ids_unsubscribe]
    exact h.given id (hsub.mem hid)

/-- Nothing is ended under a number that is not on the roll. -/
theorem unsubscribe_of_notMem (h : s.Keeps roll) {id : SubscriptionId} (hid : id ∉ roll.ids) :
    s.unsubscribe id = (false, s) := by
  have hnone : s.byId.find? id = none := by
    rw [Directory.find?_eq_none_iff, h.keys_byId]
    exact hid
  rw [unsubscribe, hnone]

/-- **Ending a subscription strikes it out**, and tells whether it stood. -/
theorem unsubscribe (h : s.Keeps roll) (id : SubscriptionId) :
    ((s.unsubscribe id).1 = true ↔ id ∈ roll.ids) ∧
      (s.unsubscribe id).2.Keeps (roll.without id) := by
  by_cases hid : id ∈ roll.ids
  · obtain ⟨e, he, rfl⟩ := Roll.mem_ids_iff.mp hid
    obtain ⟨hfound, hkeeps⟩ := h.unsubscribe_of_mem he
    exact ⟨iff_of_true hfound hid, hkeeps⟩
  · rw [h.unsubscribe_of_notMem hid, Roll.without_of_notMem hid]
    exact ⟨iff_of_false Bool.false_ne_true hid, h⟩

end Keeps

end Subscriptions

end ZoneBus
