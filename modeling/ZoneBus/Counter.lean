/-!
# Counters

Requests and subscriptions are numbered by counters of their own, from one on,
so zero names nothing and no number is given out twice.  The numbers have no
bound here: 64 bits would come round only after more requests than any session
can make.

## Main definitions

* `Counter` — how many numbers have been given out.
* `Counter.next` — the next number.
* `Counter.take` — the next few numbers.

## Main results

* `Counter.take_eq` — consecutive numbers are given out.
-/

namespace ZoneBus

/-- A source of numbers. -/
structure Counter where
  /-- How many numbers have been given out. -/
  given : Nat
deriving DecidableEq

namespace Counter

/-- A counter that has given out nothing. -/
def fresh : Counter := ⟨0⟩

/-- Gives out the next number. -/
def next (c : Counter) : Nat × Counter := (c.given + 1, ⟨c.given + 1⟩)

/-- Gives out the next few numbers. -/
def take (c : Counter) : Nat → List Nat × Counter
  | 0 => ([], c)
  | n + 1 =>
    let (i, c') := c.next
    let (is, c'') := c'.take n
    (i :: is, c'')

/-- Consecutive numbers are given out. -/
theorem take_eq (c : Counter) (n : Nat) :
    c.take n = (List.range' (c.given + 1) n, ⟨c.given + n⟩) := by
  induction n generalizing c with
  | zero => rfl
  | succ n ih =>
    simp only [take, next, ih, List.range'_succ, Prod.mk.injEq, Counter.mk.injEq, true_and]
    omega

end Counter

end ZoneBus
