import ZoneBus.Toml.Character

/-!
# TOML: writing

A document is written as sections with a blank line between them, each with its
header and its pairs.  A text is written in the plainest way that it admits: between
quotation marks as it is; else between apostrophes as it is; else between tripled
quotation marks, or tripled apostrophes, as it is; else with escapes.

## Main definitions

* `TextShape` — what about a text decides how it can be written.
* `Quoting`, `TextShape.quoting` — the ways to write a text, and the way to choose.
* `writeText` — a text in the chosen way.
* `Section`, `writeSections` — a section, and a whole document.
-/

namespace ZoneBus.Toml

/-! ### Texts -/

/-- What about a text decides how it can be written. -/
structure TextShape where
  /-- The most apostrophes in a row. -/
  apostrophes : Nat
  /-- The most quotation marks in a row. -/
  marks : Nat
  /-- Whether there is a backslash. -/
  backslash : Bool
  /-- Whether there is a line feed. -/
  lineFeed : Bool
  /-- Whether there is a control character besides tabulator and line feed. -/
  control : Bool
deriving DecidableEq

/-- The most times that a character stands in a row; the run that goes on now and the
longest one so far are given. -/
def longestRunFrom (q : Char) : Nat → Nat → Chars → Nat
  | _, best, [] => best
  | run, best, c :: rest =>
    if c == q then longestRunFrom q (run + 1) (max best (run + 1)) rest
    else longestRunFrom q 0 best rest

/-- The most times that a character stands in a row. -/
def longestRun (q : Char) (cs : Chars) : Nat := longestRunFrom q 0 0 cs

/-- Whether a character cannot stand for itself anywhere. -/
def isControl (c : Char) : Bool :=
  (decide (c.toNat < 0x20) && c != '\t' && c != '\n') || c.toNat == 0x7F

/-- The shape of a text. -/
def TextShape.of (cs : Chars) : TextShape :=
  { apostrophes := longestRun '\x27' cs
    marks := longestRun '\x22' cs
    backslash := cs.contains '\\'
    lineFeed := cs.contains '\n'
    control := cs.any isControl }

/-- The ways to write a text. -/
inductive Quoting where
  /-- Between quotation marks. -/
  | marks
  /-- Between apostrophes. -/
  | apostrophes
  /-- Between tripled quotation marks. -/
  | tripleMarks
  /-- Between tripled apostrophes. -/
  | tripleApostrophes
deriving DecidableEq, Repr

/-- The plainest way to write a text of a shape. -/
def TextShape.quoting (s : TextShape) : Quoting :=
  if !s.control && !s.backslash && s.marks == 0 && !s.lineFeed then .marks
  else if !s.control && s.apostrophes == 0 && !s.lineFeed then .apostrophes
  else if !s.control && !s.backslash && decide (s.marks ≤ 2) then .tripleMarks
  else if !s.control && decide (s.apostrophes ≤ 2) then .tripleApostrophes
  else if s.lineFeed then .tripleMarks
  else .marks

/-- A number below sixteen as a digit, upper case. -/
def hexDigitUpper (n : Nat) : Char := if n < 10 then Char.ofNat (48 + n) else Char.ofNat (55 + n)

/-- A control character by its number. -/
def escapeByNumber (c : Char) : Chars :=
  let n := c.toNat
  ['\\', 'u', hexDigitUpper (n / 4096 % 16), hexDigitUpper (n / 256 % 16),
    hexDigitUpper (n / 16 % 16), hexDigitUpper (n % 16)]

/-- The text between quotation marks.  So many quotation marks in a row, counted from
the given number, may stand for themselves, and line feeds when the marks are tripled. -/
def escapeFrom (tripled : Bool) : Nat → Chars → Chars
  | _, [] => []
  | run, c :: rest =>
    if c == '\x22' then
      if tripled && decide (run < 2) then c :: escapeFrom tripled (run + 1) rest
      else '\\' :: c :: escapeFrom tripled 0 rest
    else if c == '\\' then '\\' :: '\\' :: escapeFrom tripled 0 rest
    else if c == '\n' && tripled then c :: escapeFrom tripled 0 rest
    else if c == '\x08' then '\\' :: 'b' :: escapeFrom tripled 0 rest
    else if c == '\t' then '\\' :: 't' :: escapeFrom tripled 0 rest
    else if c == '\n' then '\\' :: 'n' :: escapeFrom tripled 0 rest
    else if c == '\x0c' then '\\' :: 'f' :: escapeFrom tripled 0 rest
    else if c == '\r' then '\\' :: 'r' :: escapeFrom tripled 0 rest
    else if isControl c then escapeByNumber c ++ escapeFrom tripled 0 rest
    else c :: escapeFrom tripled 0 rest

/-- A text in the chosen way.  Tripled marks are followed by a line end when the text
has line feeds of its own. -/
def writeText (cs : Chars) : Chars :=
  let shape := TextShape.of cs
  let opening := if shape.lineFeed then ['\n'] else []
  match shape.quoting with
  | .marks => '\x22' :: (escapeFrom false 0 cs ++ ['\x22'])
  | .apostrophes => '\x27' :: (cs ++ ['\x27'])
  | .tripleMarks =>
    List.replicate 3 '\x22' ++ opening ++ escapeFrom true 0 cs ++ List.replicate 3 '\x22'
  | .tripleApostrophes =>
    List.replicate 3 '\x27' ++ opening ++ cs ++ List.replicate 3 '\x27'

/-! ### Sections -/

/-- A value that can be written on one line. -/
inductive Plain where
  /-- A text. -/
  | string (text : String)
  /-- A whole number. -/
  | natural (value : Nat)
  /-- A truth value. -/
  | boolean (value : Bool)

/-- A value on one line; a number has to fit into sixty-four bits with sign. -/
def Plain.write? : Plain → Option Chars
  | string text => some (writeText text.toList)
  | natural value => if value ≤ 0x7FFFFFFFFFFFFFFF then some (Nat.toDigits 10 value) else none
  | boolean true => some "true".toList
  | boolean false => some "false".toList

/-- A table with its header. -/
structure Section where
  /-- The name in the header. -/
  name : String
  /-- The pairs in order. -/
  pairs : List (String × Plain)

/-- Pairs, a line each. -/
def writePairs? : List (String × Plain) → Option Chars
  | [] => some []
  | (k, v) :: rest => do
    let value ← v.write?
    let more ← writePairs? rest
    return k.toList ++ " = ".toList ++ value ++ '\n' :: more

/-- A section with its header. -/
def Section.write? (s : Section) : Option Chars :=
  (writePairs? s.pairs).map fun lines => '[' :: (s.name.toList ++ ']' :: '\n' :: lines)

/-- Sections with a blank line between them. -/
def writeSections? : List Section → Option Chars
  | [] => some []
  | [s] => s.write?
  | s :: rest => do
    let first ← s.write?
    let more ← writeSections? rest
    return first ++ '\n' :: more

end ZoneBus.Toml
