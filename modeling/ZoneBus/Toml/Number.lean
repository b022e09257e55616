import ZoneBus.Toml.Text

/-!
# TOML: numbers

A whole number is written in base ten with an optional sign, or in base sixteen,
eight or two after a mark; it has to fit into sixty-four bits with sign.  A number
with a fraction or an exponent is of another kind, and so are infinity and what is
no number.  Underscores may stand between digits, and a number of more than one
digit does not begin with zero.

## Main definitions

* `digitRun` — digits with underscores between them.
* `integer` — a whole number.
* `Decimal`, `Decimal.isFinite` — a number in base ten, and whether it lies in the
  range of double precision.
* `float` — a number of the other kind.
-/

namespace ZoneBus.Toml

/-- The digits at the start, with underscores between them left out. -/
def moreDigits (isDigit : Char → Bool) : Chars → Chars × Chars
  | [] => ([], [])
  | c :: rest =>
    if isDigit c then
      let (ds, rest) := moreDigits isDigit rest
      (c :: ds, rest)
    else if c == '_' && rest.head?.any isDigit then moreDigits isDigit rest
    else ([], c :: rest)

/-- One digit or more, with underscores between them. -/
def digitRun (isDigit : Char → Bool) : Reader Chars
  | [] => none
  | c :: rest => if isDigit c then some (moreDigits isDigit (c :: rest)) else none

/-- A sign, if there is one: whether the number is negative. -/
def sign : Chars → Bool × Chars
  | '+' :: rest => (false, rest)
  | '-' :: rest => (true, rest)
  | cs => (false, cs)

/-- Digits in base ten that do not begin with zero, or a zero. -/
def decimalDigits : Reader Chars
  | '0' :: rest => some (['0'], rest)
  | cs => digitRun Char.isDigit cs

/-- The number with some digits. -/
def numberInBase (base : Nat) (ds : Chars) : Nat :=
  ds.foldl (fun n d => base * n + (hexValue? d).getD 0) 0

/-- A whole number, if it fits into sixty-four bits with sign. -/
def inRange (n : Int) : Option Int :=
  if -0x8000000000000000 ≤ n ∧ n ≤ 0x7FFFFFFFFFFFFFFF then some n else none

/-- A whole number in another base than ten, after its mark. -/
def markedInteger (base : Nat) : Reader Int := fun cs => do
  let (ds, rest) ← digitRun (fun c => (hexValue? c).any fun d => decide (d < base)) cs
  let n ← inRange (numberInBase base ds)
  return (n, rest)

/-- A whole number. -/
def integer : Reader Int
  | '0' :: 'x' :: rest => markedInteger 16 rest
  | '0' :: 'o' :: rest => markedInteger 8 rest
  | '0' :: 'b' :: rest => markedInteger 2 rest
  | cs => do
    let (negative, cs) := sign cs
    let (ds, rest) ← decimalDigits cs
    let n ← inRange (if negative then -(numberInBase 10 ds : Int) else numberInBase 10 ds)
    return (n, rest)

/-- A number in base ten. -/
structure Decimal where
  /-- Whether it is negative. -/
  negative : Bool
  /-- Its digits as a whole number. -/
  mantissa : Nat
  /-- The power of ten that it is multiplied with. -/
  exponent : Int

/-- From this number on, everything is rounded to infinity in double precision. -/
def roundsToInfinity : Nat := Nat.pow 2 1024 - Nat.pow 2 970

/-- Whether a number lies below everything that is rounded to positive infinity.
Numbers with more than 310 places before the point never do. -/
def Decimal.isFinite (d : Decimal) : Bool :=
  let places : Int := (Nat.toDigits 10 d.mantissa).length + d.exponent
  if d.negative || d.mantissa == 0 || decide (places < 300) then true
  else if 310 < places then false
  else if 0 ≤ d.exponent then decide (d.mantissa * Nat.pow 10 d.exponent.toNat < roundsToInfinity)
  else decide (d.mantissa < roundsToInfinity * Nat.pow 10 (-d.exponent).toNat)

/-- An exponent, with its mark. -/
def exponent : Reader Int
  | [] => none
  | c :: rest =>
    if c == 'e' || c == 'E' then do
      let (negative, rest) := sign rest
      let (ds, rest) ← digitRun Char.isDigit rest
      return (if negative then -(numberInBase 10 ds : Int) else numberInBase 10 ds, rest)
    else none

/-- A fraction with its point, then an exponent if there is one. -/
def fraction : Reader (Chars × Int)
  | '.' :: rest => do
    let (ds, rest) ← digitRun Char.isDigit rest
    match exponent rest with
    | some (e, rest) => return ((ds, e), rest)
    | none => return ((ds, 0), rest)
  | _ => none

/-- A number with a fraction or an exponent. -/
def decimal : Reader Decimal := fun cs => do
  let (negative, cs) := sign cs
  let (ds, rest) ← decimalDigits cs
  match exponent rest with
  | some (e, rest) => return (⟨negative, numberInBase 10 ds, e⟩, rest)
  | none =>
    let ((fs, e), rest) ← fraction rest
    return (⟨negative, numberInBase 10 (ds ++ fs), e - fs.length⟩, rest)

/-- The words for infinity and for what is no number. -/
def specialFloat : Chars → Option Chars
  | 'i' :: 'n' :: 'f' :: rest => some rest
  | 'n' :: 'a' :: 'n' :: rest => some rest
  | _ => none

/-- What follows a number of the other kind. -/
def float (cs : Chars) : Option Chars :=
  match decimal cs with
  | some (d, rest) => if d.isFinite then some rest else none
  | none => specialFloat (sign cs).2

end ZoneBus.Toml
