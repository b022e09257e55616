import Mathlib.Data.List.Basic
import Mathlib.Data.List.Perm.Basic
import ZoneBus.Directory

/-!
# The keys of a directory

A key is listed exactly when something is found under it.  Filing under a key
that is listed leaves the list of keys alone, filing under a new one adds it at
the end, and erasing takes it out, so a directory whose keys are all different
stays one.

## Main results

* `Directory.mem_keys_iff` — a key is listed when something is found under it.
* `Directory.keys_put_of_mem`, `keys_put_of_notMem`, `keys_erase`,
  `keys_modify` — the keys after each change.
* `Directory.find?_eq_some_of_mem` — with different keys, every entry is found.
-/

namespace ZoneBus

namespace Directory

variable {κ α : Type} [DecidableEq κ]

theorem findIn_isSome_iff (k : κ) (es : List (κ × α)) :
    (findIn k es).isSome ↔ k ∈ es.map Prod.fst := by
  induction es with
  | nil => simp [findIn]
  | cons e es ih =>
    obtain ⟨k', a⟩ := e
    rw [findIn, List.map_cons, List.mem_cons]
    by_cases h : k' = k
    · subst h; simp
    · rw [if_neg h, ih]
      constructor
      · exact Or.inr
      · rintro (h' | h')
        · exact absurd h'.symm h
        · exact h'

/-- A key is listed exactly when something is found under it. -/
theorem mem_keys_iff {d : Directory κ α} {k : κ} : k ∈ d.keys ↔ (d.find? k).isSome :=
  (findIn_isSome_iff k d.entries).symm

theorem mem_keys_of_find? {d : Directory κ α} {k : κ} {a : α} (h : d.find? k = some a) :
    k ∈ d.keys := by
  rw [mem_keys_iff, h]; rfl

theorem find?_eq_none_iff {d : Directory κ α} {k : κ} : d.find? k = none ↔ k ∉ d.keys := by
  rw [mem_keys_iff]; simp

theorem contains_iff_mem_keys {d : Directory κ α} {k : κ} : d.contains k = true ↔ k ∈ d.keys :=
  mem_keys_iff.symm

theorem keys_putIn_of_mem {k : κ} {a : α} : ∀ {es : List (κ × α)}, k ∈ es.map Prod.fst →
    (putIn k a es).map Prod.fst = es.map Prod.fst := by
  intro es
  induction es with
  | nil => intro h; simp at h
  | cons e es ih =>
    intro h
    obtain ⟨k', a'⟩ := e
    rw [putIn]
    by_cases hk : k' = k
    · subst hk; simp
    · rw [if_neg hk, List.map_cons, List.map_cons]
      rw [List.map_cons, List.mem_cons] at h
      rcases h with h | h
      · exact absurd h.symm hk
      · rw [ih h]

theorem putIn_of_notMem {k : κ} {a : α} : ∀ {es : List (κ × α)}, k ∉ es.map Prod.fst →
    putIn k a es = es ++ [(k, a)] := by
  intro es
  induction es with
  | nil => intro _; rfl
  | cons e es ih =>
    intro h
    obtain ⟨k', a'⟩ := e
    rw [List.map_cons, List.mem_cons, not_or] at h
    rw [putIn, if_neg (Ne.symm h.1), ih h.2, List.cons_append]

/-- Filing under a listed key leaves the keys as they are. -/
theorem keys_put_of_mem {d : Directory κ α} {k : κ} {a : α} (h : k ∈ d.keys) :
    (d.put k a).keys = d.keys :=
  keys_putIn_of_mem h

/-- Filing under a new key adds it at the end. -/
theorem keys_put_of_notMem {d : Directory κ α} {k : κ} {a : α} (h : k ∉ d.keys) :
    (d.put k a).keys = d.keys ++ [k] := by
  rw [keys, put, putIn_of_notMem h, List.map_append]; rfl

/-- Erasing takes the key out. -/
theorem keys_erase (d : Directory κ α) (k : κ) :
    (d.erase k).keys = d.keys.filter fun k' => decide (k' ≠ k) := by
  rw [keys, erase, keys, List.filter_map]; rfl

theorem nodup_keys_erase {d : Directory κ α} (hn : d.keys.Nodup) (k : κ) :
    (d.erase k).keys.Nodup := by
  rw [keys_erase]
  exact hn.filter _

/-- The keys before an erasure are the erased one and the rest. -/
theorem keys_perm_cons_erase {d : Directory κ α} {k : κ} (hn : d.keys.Nodup) (hk : k ∈ d.keys) :
    d.keys.Perm (k :: (d.erase k).keys) := by
  have h : (d.erase k).keys = d.keys.erase k := by
    rw [keys_erase, hn.erase_eq_filter k]
    refine List.filter_congr fun k' _ => ?_
    rw [bne, Bool.eq_iff_iff]; simp
  rw [h]
  exact List.perm_cons_erase hk

theorem findIn_eq_some_of_mem {k : κ} {a : α} : ∀ {es : List (κ × α)},
    (es.map Prod.fst).Nodup → (k, a) ∈ es → findIn k es = some a := by
  intro es
  induction es with
  | nil => intro _ h; simp at h
  | cons e es ih =>
    intro hn h
    obtain ⟨k', a'⟩ := e
    rw [List.map_cons, List.nodup_cons] at hn
    rw [List.mem_cons] at h
    rw [findIn]
    rcases h with h | h
    · obtain ⟨rfl, rfl⟩ := Prod.mk.inj h
      simp
    -- the entry stands further on, so the first key is a different one
    · have hne : k' ≠ k := by
        rintro rfl
        exact hn.1 (List.mem_map.mpr ⟨_, h, rfl⟩)
      rw [if_neg hne, ih hn.2 h]

/-- With different keys, every entry is found. -/
theorem find?_eq_some_of_mem {d : Directory κ α} {k : κ} {a : α} (hn : d.keys.Nodup)
    (h : (k, a) ∈ d.entries) : d.find? k = some a :=
  findIn_eq_some_of_mem hn h

theorem mem_of_findIn_eq_some {k : κ} {a : α} : ∀ {es : List (κ × α)},
    findIn k es = some a → (k, a) ∈ es := by
  intro es
  induction es with
  | nil => intro h; simp [findIn] at h
  | cons e es ih =>
    intro h
    obtain ⟨k', a'⟩ := e
    rw [findIn] at h
    by_cases hk : k' = k
    · subst hk
      rw [if_pos rfl, Option.some.injEq] at h
      rw [h]
      exact List.mem_cons_self
    · rw [if_neg hk] at h
      exact List.mem_cons_of_mem _ (ih h)

/-- What is found is an entry. -/
theorem mem_entries_of_find? {d : Directory κ α} {k : κ} {a : α} (h : d.find? k = some a) :
    (k, a) ∈ d.entries :=
  mem_of_findIn_eq_some h

/-- Changing all values changes what is found. -/
theorem findIn_map (es : List (κ × α)) (f : α → α) (k : κ) :
    findIn k (es.map fun e => (e.1, f e.2)) = (findIn k es).map f := by
  induction es with
  | nil => rfl
  | cons e es ih =>
    obtain ⟨k', a⟩ := e
    rw [List.map_cons, findIn, findIn]
    by_cases h : k' = k
    · rw [if_pos h, if_pos h]; rfl
    · rw [if_neg h, if_neg h, ih]

/-- Changing a value leaves the keys as they are. -/
theorem keys_modify (d : Directory κ α) (k : κ) (f : α → α) : (d.modify k f).keys = d.keys := by
  unfold keys modify
  rw [List.map_map]
  refine List.map_congr_left fun e _ => ?_
  show (if e.1 = k then (e.1, f e.2) else e).1 = e.1
  split <;> rfl

/-- Different keys stay different. -/
theorem nodup_keys_put {d : Directory κ α} (hn : d.keys.Nodup) (k : κ) (a : α) :
    (d.put k a).keys.Nodup := by
  by_cases hk : k ∈ d.keys
  · rw [keys_put_of_mem hk]
    exact hn
  · rw [keys_put_of_notMem hk, List.nodup_append]
    refine ⟨hn, List.pairwise_singleton _ _, fun j hj j' hj' => ?_⟩
    rw [List.mem_singleton] at hj'
    rintro rfl
    exact hk (hj' ▸ hj)

end Directory

end ZoneBus
