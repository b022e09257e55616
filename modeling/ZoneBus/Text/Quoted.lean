import ZoneBus.Text.Invisible

/-!
# Texts between quotation marks

A text that is shown inside a message stands between quotation marks.  Quotation
marks and backslashes in it get a backslash, the usual controls their letter, and
every other invisible character is written by its number.

## Main definitions

* `Quoted.escape` — how one character is written.
* `quoted` — a text between quotation marks.
-/

namespace ZoneBus

namespace Quoted

/-- The digits of a number in base sixteen, lower case. -/
def hexDigits (n : Nat) : List Char := Nat.toDigits 16 n

/-- How one character is written. -/
def escape (c : Char) : List Char :=
  if c = '\x22' then ['\\', '\x22']
  else if c = '\\' then ['\\', '\\']
  else if c = '\x00' then ['\\', '0']
  else if c = '\t' then ['\\', 't']
  else if c = '\n' then ['\\', 'n']
  else if c = '\r' then ['\\', 'r']
  else if isInvisible c then ['\\', 'u', '\x7b'] ++ hexDigits c.toNat ++ ['\x7d']
  else [c]

end Quoted

/-- A text between quotation marks. -/
def quoted (s : List Char) : List Char := '\x22' :: (s.flatMap Quoted.escape ++ ['\x22'])

end ZoneBus
