/-!
# Decimal numerals

A numeral is an optional sign and one digit or more.  Reading goes from left to
right and stops at the first thing that is wrong: a character that is no digit,
or a digit that makes the number too large.  The two ways to be wrong never
compete, since a character is looked at before the number that it would make.

## Main definitions

* `NumeralError` — why a text is no numeral in range.
* `Numeral.ofDigits` — the number of some digits, up to a bound.
* `Numeral.natural` — reads a numeral that takes no minus sign.
* `Numeral.integer` — reads a numeral of a signed sixty-four-bit number.
-/

namespace ZoneBus

/-- Why a text is no numeral in range. -/
inductive NumeralError where
  /-- There is no character. -/
  | empty
  /-- A character is no digit, or there is only a sign. -/
  | invalidDigit
  /-- The number is above the range. -/
  | tooLarge
  /-- The number is below the range. -/
  | tooSmall
deriving DecidableEq, Repr

/-- The text of an error. -/
def NumeralError.message : NumeralError → String
  | empty => "cannot parse integer from empty string"
  | invalidDigit => "invalid digit found in string"
  | tooLarge => "number too large to fit in target type"
  | tooSmall => "number too small to fit in target type"

namespace Numeral

/-- The value of a decimal digit. -/
def digit? (c : Char) : Option Nat :=
  if 48 ≤ c.toNat ∧ c.toNat ≤ 57 then some (c.toNat - 48) else none

/-- The number whose digits are those read so far and the given ones; fails as soon
as it is above the bound. -/
def ofDigits (most : Nat) (outOfRange : NumeralError) : Nat → List Char → Except NumeralError Nat
  | n, [] => .ok n
  | n, c :: rest =>
    match digit? c with
    | none => .error .invalidDigit
    | some d =>
      if 10 * n + d ≤ most then ofDigits most outOfRange (10 * n + d) rest
      else .error outOfRange

/-- Reads digits of which there must be one. -/
def digits (most : Nat) (outOfRange : NumeralError) : List Char → Except NumeralError Nat
  | [] => .error .invalidDigit
  | cs => ofDigits most outOfRange 0 cs

/-- Reads a number from zero up to a bound. -/
def natural (most : Nat) : List Char → Except NumeralError Nat
  | [] => .error .empty
  | '+' :: rest => digits most .tooLarge rest
  | cs => digits most .tooLarge cs

/-- Reads a signed number of sixty-four bits. -/
def integer : List Char → Except NumeralError Int
  | [] => .error .empty
  | '+' :: rest => (digits 0x7FFFFFFFFFFFFFFF .tooLarge rest).map Int.ofNat
  | '-' :: rest => (digits 0x8000000000000000 .tooSmall rest).map fun n => -Int.ofNat n
  | cs => (digits 0x7FFFFFFFFFFFFFFF .tooLarge cs).map Int.ofNat

end Numeral

end ZoneBus
