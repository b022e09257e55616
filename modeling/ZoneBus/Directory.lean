/-!
# Directories

Values filed under keys, each key at most once.  Keys keep the order in which
they were first filed, so a directory has one listing and no hidden order.

## Main definitions

* `Directory` — the entries in order.
* `Directory.find?`, `Directory.put`, `Directory.erase` — looking up, filing
  and removing.
* `Directory.modify` — changing the value of a key that is there.

## Main results

* `Directory.find?_put`, `Directory.find?_erase`, `Directory.find?_modify` —
  what is found after each change.
-/

namespace ZoneBus

/-- Values filed under keys. -/
structure Directory (κ α : Type) where
  /-- Keys and values, in the order in which the keys were first filed. -/
  entries : List (κ × α)

namespace Directory

variable {κ α : Type} [DecidableEq κ]

/-- The directory without entries. -/
def empty : Directory κ α := ⟨[]⟩

instance : Inhabited (Directory κ α) := ⟨empty⟩

/-- The keys in order. -/
def keys (d : Directory κ α) : List κ := d.entries.map Prod.fst

/-- The values in the order of their keys. -/
def values (d : Directory κ α) : List α := d.entries.map Prod.snd

/-- The number of keys. -/
def size (d : Directory κ α) : Nat := d.entries.length

/-- Whether there is no key. -/
def isEmpty (d : Directory κ α) : Bool := d.entries.isEmpty

/-- The value at a key in a list of entries. -/
def findIn (k : κ) : List (κ × α) → Option α
  | [] => none
  | (k', a) :: rest => if k' = k then some a else findIn k rest

/-- A list of entries with the value at a key replaced, or added at the end. -/
def putIn (k : κ) (a : α) : List (κ × α) → List (κ × α)
  | [] => [(k, a)]
  | (k', a') :: rest => if k' = k then (k, a) :: rest else (k', a') :: putIn k a rest

/-- The value filed under a key. -/
def find? (d : Directory κ α) (k : κ) : Option α := findIn k d.entries

/-- Whether something is filed under a key. -/
def contains (d : Directory κ α) (k : κ) : Bool := (d.find? k).isSome

/-- Files a value under a key, in place of the value that was there. -/
def put (d : Directory κ α) (k : κ) (a : α) : Directory κ α := ⟨putIn k a d.entries⟩

/-- Removes what is filed under a key. -/
def erase (d : Directory κ α) (k : κ) : Directory κ α :=
  ⟨d.entries.filter fun e => decide (e.1 ≠ k)⟩

/-- Changes the value filed under a key, if there is one. -/
def modify (d : Directory κ α) (k : κ) (f : α → α) : Directory κ α :=
  ⟨d.entries.map fun e => if e.1 = k then (e.1, f e.2) else e⟩

omit [DecidableEq κ] in
@[simp] theorem entries_empty : (empty : Directory κ α).entries = [] := rfl

@[simp] theorem find?_empty (k : κ) : (empty : Directory κ α).find? k = none := rfl

theorem findIn_putIn (k j : κ) (a : α) (es : List (κ × α)) :
    findIn j (putIn k a es) = if k = j then some a else findIn j es := by
  induction es with
  | nil => simp [putIn, findIn]
  | cons e es ih =>
    obtain ⟨k', a'⟩ := e
    simp only [putIn]
    split
    · next h =>
      subst h
      simp only [findIn]
      split <;> rfl
    · next h =>
      simp only [findIn, ih]
      by_cases hj : k' = j
      · subst hj
        simp [Ne.symm h]
      · simp [hj]

/-- Filing changes what is found under that key only. -/
theorem find?_put (d : Directory κ α) (k j : κ) (a : α) :
    (d.put k a).find? j = if k = j then some a else d.find? j :=
  findIn_putIn k j a d.entries

/-- Removing changes what is found under that key only. -/
theorem find?_erase (d : Directory κ α) (k j : κ) :
    (d.erase k).find? j = if k = j then none else d.find? j := by
  obtain ⟨es⟩ := d
  simp only [find?, erase]
  induction es with
  | nil => simp [findIn]
  | cons e es ih =>
    obtain ⟨k', a'⟩ := e
    by_cases h : k' = k
    · subst h
      simp only [ne_eq, not_true_eq_false, decide_false, Bool.false_eq_true, not_false_eq_true,
        List.filter_cons_of_neg, ih, findIn]
      split <;> rfl
    · simp only [ne_eq, h, not_false_eq_true, decide_true, List.filter_cons_of_pos, findIn, ih]
      by_cases hj : k' = j
      · subst hj; simp [Ne.symm h]
      · simp [hj]

/-- Changing a value changes what is found under that key only. -/
theorem find?_modify (d : Directory κ α) (k j : κ) (f : α → α) :
    (d.modify k f).find? j = if k = j then (d.find? j).map f else d.find? j := by
  obtain ⟨es⟩ := d
  simp only [find?, modify]
  induction es with
  | nil => simp [findIn]
  | cons e es ih =>
    obtain ⟨k', a'⟩ := e
    simp only [List.map_cons, findIn]
    by_cases h : k' = k
    · subst h
      by_cases hj : k' = j
      · simp [hj]
      · simp [hj, ih]
    · by_cases hj : k' = j
      · subst hj; simp [h, Ne.symm h]
      · simp [h, hj, ih]

end Directory

end ZoneBus
