import ZoneBus.Bytes

/-!
# Bytes as text

A byte is shown as two digits in base sixteen, the high one first.  Bytes are written
with small letters and read with letters of either size.

## Main definitions

* `hexText` — bytes as people see them.
* `ofHexText?` — the bytes that a text shows.
-/

namespace ZoneBus

/-- The digit of a number below sixteen, with small letters. -/
def smallHexDigit (n : Nat) : Char :=
  if n < 10 then Char.ofNat (48 + n) else Char.ofNat (87 + n)

/-- Bytes as people see them. -/
def hexText (bs : Bytes) : String :=
  bs.foldl (fun s b =>
    (s.push (smallHexDigit (b.toNat / 16))).push (smallHexDigit (b.toNat % 16))) ""

/-- The value of a digit in base sixteen. -/
def hexValue? (c : Char) : Option Nat :=
  let n := c.toNat
  if 48 ≤ n ∧ n ≤ 57 then some (n - 48)
  else if 65 ≤ n ∧ n ≤ 70 then some (n - 55)
  else if 97 ≤ n ∧ n ≤ 102 then some (n - 87)
  else none

/-- Bytes read so far, the last one first, with those that a text shows put in front. -/
def readHexOnto (read : Bytes) : List Char → Option Bytes
  | [] => some read
  | [_] => none
  | high :: low :: rest =>
    match hexValue? high, hexValue? low with
    | some a, some b => readHexOnto (UInt8.ofNat (16 * a + b) :: read) rest
    | _, _ => none

/-- The bytes that a text shows; nothing when it is no such text. -/
def ofHexText? (s : String) : Option Bytes := (readHexOnto [] s.toList).map List.reverse

end ZoneBus
