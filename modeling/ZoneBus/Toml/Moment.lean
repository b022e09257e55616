import ZoneBus.Toml.Number

/-!
# TOML: dates and times

A date, a time of day, or a date with a time of day and maybe the distance to
universal time.  What is read is only whether one stands there; its value is never
needed.

## Main definitions

* `date`, `timeOfDay`, `offset` — the parts.
* `moment` — a date, a time of day, or both.
-/

namespace ZoneBus.Toml

/-- A number of exactly so many digits, between two bounds. -/
def fixedNumber (digits least most : Nat) : Reader Nat := fun cs =>
  let ds := cs.take digits
  let n := numberInBase 10 ds
  if ds.length == digits && ds.all Char.isDigit && decide (least ≤ n) && decide (n ≤ most) then
    some (n, cs.drop digits)
  else none

/-- What follows a given character. -/
def after? (c : Char) : Chars → Option Chars
  | [] => none
  | d :: rest => if d == c then some rest else none

/-- How many days a month has. -/
def daysIn (year month : Nat) : Nat :=
  if month == 2 then
    if year % 4 == 0 && (year % 100 != 0 || year % 400 == 0) then 29 else 28
  else if [4, 6, 9, 11].contains month then 30
  else 31

/-- What follows a date. -/
def date (cs : Chars) : Option Chars := do
  let (year, cs) ← fixedNumber 4 0 9999 cs
  let (month, cs) ← fixedNumber 2 1 12 (← after? '-' cs)
  let (_, cs) ← fixedNumber 2 1 (daysIn year month) (← after? '-' cs)
  return cs

/-- What follows parts of a second, if there are any. -/
def skipSecondParts : Chars → Chars
  | '.' :: d :: rest => if d.isDigit then rest.dropWhile Char.isDigit else '.' :: d :: rest
  | cs => cs

/-- What follows a time of day. -/
def timeOfDay (cs : Chars) : Option Chars := do
  let (_, cs) ← fixedNumber 2 0 23 cs
  let (_, cs) ← fixedNumber 2 0 59 (← after? ':' cs)
  let (_, cs) ← fixedNumber 2 0 60 (← after? ':' cs)
  return skipSecondParts cs

/-- What follows the distance to universal time. -/
def offset : Chars → Option Chars
  | [] => none
  | c :: rest =>
    if c == 'Z' || c == 'z' then some rest
    else if c == '+' || c == '-' then do
      let (_, cs) ← fixedNumber 2 0 23 rest
      let (_, cs) ← fixedNumber 2 0 59 (← after? ':' cs)
      return cs
    else none

/-- What follows a time of day after a date, with the distance to universal time if
there is one. -/
def timeAfterDate : Chars → Option Chars
  | [] => none
  | c :: rest =>
    if c == 'T' || c == 't' || c == ' ' then
      (timeOfDay rest).map fun cs => (offset cs).getD cs
    else none

/-- What follows a date, a time of day, or both. -/
def moment (cs : Chars) : Option Chars :=
  match date cs with
  | some cs => some ((timeAfterDate cs).getD cs)
  | none => timeOfDay cs

end ZoneBus.Toml
