import ZoneBus.Proofs.Directory.Keys

/-!
# The values of a directory

With different keys, changing the value of one key changes one value and leaves the
rest.  What is picked out of the values only gets less when a value is changed or
filed that offers nothing new.  Whether some value has a property can be told by the
keys, and filing and erasing tell what becomes of it.

## Main results

* `Directory.exists_values_perm` — one value changes and the rest stays.
* `Directory.picked_modify_sublist`, `picked_put_sublist` — what is picked out of the
  values gets less.
* `Directory.any_values_of_find?`, `exists_find?_of_any` — whether some value has a
  property.
-/

namespace ZoneBus

namespace Directory

variable {κ α β : Type} [DecidableEq κ]

/-- Changing the value of a key that is not there changes nothing. -/
theorem modify_of_notMem {d : Directory κ α} {k : κ} (hk : k ∉ d.keys) (f : α → α) :
    d.modify k f = d := by
  have hmap : d.entries.map (fun e => if e.1 = k then (e.1, f e.2) else e) = d.entries := by
    refine (List.map_congr_left fun e he => ?_).trans (List.map_id _)
    rw [if_neg]
    · rfl
    · rintro rfl
      exact hk (List.mem_map.mpr ⟨e, he, rfl⟩)
  unfold modify
  rw [hmap]

/-- The values are that of one key and the rest, before and after it is changed. -/
theorem exists_values_perm {k : κ} {a : α} (f : α → α) : ∀ {d : Directory κ α},
    d.keys.Nodup → d.find? k = some a →
      ∃ rest, d.values.Perm (a :: rest) ∧ (d.modify k f).values.Perm (f a :: rest) := by
  intro d
  obtain ⟨es⟩ := d
  induction es with
  | nil => intro _ h; cases h
  | cons e es ih =>
    intro hn h
    obtain ⟨k', b⟩ := e
    obtain ⟨hk, hn⟩ := List.nodup_cons.mp hn
    change findIn k ((k', b) :: es) = some a at h
    rw [findIn] at h
    by_cases he : k' = k
    -- the key stands first, and not again
    · subst he
      rw [if_pos rfl, Option.some.injEq] at h
      subst h
      have hrest := congrArg values (modify_of_notMem (d := ⟨es⟩) hk f)
      refine ⟨es.map Prod.snd, List.Perm.refl _, ?_⟩
      have hmod : (Directory.modify ⟨(k', b) :: es⟩ k' f).values =
          f b :: (Directory.modify ⟨es⟩ k' f).values := by
        unfold modify values
        rw [List.map_cons, if_pos rfl, List.map_cons]
      rw [hmod, hrest]
      exact List.Perm.refl _
    · rw [if_neg he] at h
      obtain ⟨rest, hvals, hvals'⟩ := ih hn h
      refine ⟨b :: rest, (hvals.cons b).trans (.swap _ _ _), ?_⟩
      have hmod : (Directory.modify ⟨(k', b) :: es⟩ k f).values =
          b :: (Directory.modify ⟨es⟩ k f).values := by
        unfold modify values
        rw [List.map_cons, if_neg he, List.map_cons]
      rw [hmod]
      exact (hvals'.cons b).trans (.swap _ _ _)

omit [DecidableEq κ] in
/-- A change picks nothing new when it keeps what is picked out of a value, or takes it. -/
theorem picked_map_sublist {pick : α → Option β} {f : κ × α → κ × α} {es : List (κ × α)}
    (hf : ∀ e ∈ es, pick (f e).2 = pick e.2 ∨ pick (f e).2 = none) :
    (((es.map f).map Prod.snd).filterMap pick).Sublist ((es.map Prod.snd).filterMap pick) := by
  induction es with
  | nil => exact List.Sublist.refl _
  | cons e es ih =>
    have hrest := ih fun e he => hf e (List.mem_cons_of_mem _ he)
    rw [List.map_cons, List.map_cons, List.map_cons, List.filterMap_cons, List.filterMap_cons]
    rcases hf e List.mem_cons_self with he | he
    · rw [he]
      cases pick e.2 with
      | none => exact hrest
      | some b => exact hrest.cons_cons b
    · rw [he]
      cases pick e.2 with
      | none => exact hrest
      | some b => exact hrest.cons b

theorem picked_modify_sublist {pick : α → Option β} {f : α → α}
    (hf : ∀ a, pick (f a) = pick a ∨ pick (f a) = none) (d : Directory κ α) (k : κ) :
    ((d.modify k f).values.filterMap pick).Sublist (d.values.filterMap pick) := by
  refine picked_map_sublist fun e _ => ?_
  by_cases he : e.1 = k
  · rw [if_pos he]
    exact hf e.2
  · rw [if_neg he]
    exact Or.inl rfl

theorem picked_put_sublist {pick : α → Option β} {a : α} (ha : pick a = none)
    (d : Directory κ α) (k : κ) :
    ((d.put k a).values.filterMap pick).Sublist (d.values.filterMap pick) := by
  obtain ⟨es⟩ := d
  show (((putIn k a es).map Prod.snd).filterMap pick).Sublist ((es.map Prod.snd).filterMap pick)
  induction es with
  | nil =>
    show ([a].filterMap pick).Sublist []
    rw [List.filterMap_cons_none ha]
    exact List.Sublist.refl _
  | cons e es ih =>
    obtain ⟨k', b⟩ := e
    rw [putIn]
    by_cases he : k' = k
    · rw [if_pos he, List.map_cons, List.map_cons, List.filterMap_cons_none ha]
      exact (List.sublist_cons_self b _).filterMap pick
    · rw [if_neg he, List.map_cons, List.map_cons, List.filterMap_cons, List.filterMap_cons]
      cases pick b with
      | none => exact ih
      | some c => exact ih.cons_cons c

/-! ### Properties of values -/

theorem any_values_of_find? {d : Directory κ α} {p : α → Bool} {k : κ} {a : α}
    (hf : d.find? k = some a) (hp : p a = true) : d.values.any p = true :=
  List.any_eq_true.mpr ⟨a, List.mem_map.mpr ⟨(k, a), mem_entries_of_find? hf, rfl⟩, hp⟩

/-- With different keys, every value is found. -/
theorem exists_find?_of_any {d : Directory κ α} {p : α → Bool} (hn : d.keys.Nodup)
    (h : d.values.any p = true) : ∃ k a, d.find? k = some a ∧ p a = true := by
  obtain ⟨a, hm, hp⟩ := List.any_eq_true.mp h
  obtain ⟨⟨k, _⟩, he, rfl⟩ := List.mem_map.mp hm
  exact ⟨k, _, find?_eq_some_of_mem hn he, hp⟩

theorem any_find?_put (d : Directory κ α) (p : α → Bool) (k j : κ) (a : α) :
    ((d.put k a).find? j).any p = if k = j then p a else (d.find? j).any p := by
  rw [find?_put]
  split <;> rfl

theorem any_find?_erase (d : Directory κ α) (p : α → Bool) (k j : κ) :
    ((d.erase k).find? j).any p = if k = j then false else (d.find? j).any p := by
  rw [find?_erase]
  split <;> rfl

/-- Nothing is told of a value that has the property as the one before had it. -/
theorem any_put_eq {d : Directory κ α} {p : α → Bool} {k : κ} {a : α}
    (h : (d.find? k).any p = p a) (j : κ) : ((d.put k a).find? j).any p = (d.find? j).any p := by
  rw [any_find?_put]
  split
  · next he => rw [← he, h]
  · rfl

/-- Nor of the end of one that did not have it. -/
theorem any_erase_eq {d : Directory κ α} {p : α → Bool} {k : κ} (h : (d.find? k).any p = false)
    (j : κ) : ((d.erase k).find? j).any p = (d.find? j).any p := by
  rw [any_find?_erase]
  split
  · next he => rw [← he, h]
  · rfl

end Directory

end ZoneBus
