import ZoneBus.Text.Hex
import ZoneBus.Toml.Character

/-!
# TOML: texts

A text stands between quotation marks, where a backslash begins an escape, or
between apostrophes, where every character stands for itself.  Tripled, both kinds
may go over several lines; a line end directly after the opening is left out, and
every line end counts as one line feed.

## Main definitions

* `escape?` — the character that an escape stands for.
* `basicText`, `literalText`, `longBasicText`, `longLiteralText` — the four kinds,
  each after its opening.
* `text` — a text of any kind.
-/

namespace ZoneBus.Toml

/-! ### Escapes -/

/-- The number with some digits in base sixteen. -/
def hexNumber? (cs : Chars) : Option Nat :=
  cs.foldlM (fun n c => (hexValue? c).map (16 * n + ·)) 0

/-- The character with a number of exactly so many digits. -/
def charByNumber? (digits : Nat) : Reader Char := fun cs =>
  if (cs.take digits).length < digits then none
  else
    match hexNumber? (cs.take digits) with
    | none => none
    | some n => if n.isValidChar then some (Char.ofNat n, cs.drop digits) else none

/-- The character that an escape stands for, after its backslash. -/
def escape? : Reader Char
  | [] => none
  | c :: rest =>
    if c == 'b' then some ('\x08', rest)
    else if c == 't' then some ('\t', rest)
    else if c == 'n' then some ('\n', rest)
    else if c == 'f' then some ('\x0c', rest)
    else if c == 'r' then some ('\r', rest)
    else if c == '\x22' then some ('\x22', rest)
    else if c == '\\' then some ('\\', rest)
    else if c == 'u' then charByNumber? 4 rest
    else if c == 'U' then charByNumber? 8 rest
    else none

/-! ### On one line -/

/-- The rest of a text between quotation marks, with at most so many characters and
escapes. -/
def basicTextWithin : Nat → Reader Chars
  | _, [] => none
  | 0, _ => none
  | n + 1, c :: rest =>
    if c == '\x22' then some ([], rest)
    else if c == '\\' then do
      let (d, rest) ← escape? rest
      let (cs, rest) ← basicTextWithin n rest
      return (d :: cs, rest)
    else if isBasicChar c then do
      let (cs, rest) ← basicTextWithin n rest
      return (c :: cs, rest)
    else none

/-- The rest of a text between quotation marks. -/
def basicText : Reader Chars := fun cs => basicTextWithin cs.length cs

/-- The rest of a text between apostrophes. -/
def literalText : Reader Chars
  | [] => none
  | c :: rest =>
    if c == '\x27' then some ([], rest)
    else if isLiteralChar c then (literalText rest).map fun r => (c :: r.1, r.2)
    else none

/-! ### Over several lines -/

/-- How many times a character stands at the start. -/
def runLength (q : Char) (cs : Chars) : Nat := (cs.takeWhile (· == q)).length

/-- What follows blanks and line ends. -/
def skipLines : Chars → Chars
  | [] => []
  | c :: rest =>
    if isBlank c || c == '\n' then skipLines rest
    else if c == '\r' && rest.head? == some '\n' then skipLines rest
    else c :: rest

/-- What follows the blanks and line ends after a backslash that ends its line. -/
def joinedLine? (cs : Chars) : Option Chars := (newline? (skipBlanks cs)).map skipLines

/-- The rest of a text between tripled marks, with at most so many steps.  Up to two
marks may stand in the text, also just before those that end it. -/
def longTextWithin (q : Char) (special : Reader Chars) : Nat → Reader Chars
  | 0, _ => none
  | n + 1, cs =>
    let marks := runLength q cs
    if 3 ≤ marks then
      some (List.replicate (min marks 5 - 3) q, cs.drop (min marks 5))
    else if 0 < marks then do
      let (more, rest) ← longTextWithin q special n (cs.drop marks)
      return (List.replicate marks q ++ more, rest)
    else
      match special cs with
      | none => none
      | some (read, rest) => do
        let (more, rest) ← longTextWithin q special n rest
        return (read ++ more, rest)

/-- What a character that is no quotation mark stands for between tripled ones. -/
def longBasicPiece : Reader Chars
  | [] => none
  | c :: rest =>
    if c == '\\' then
      match joinedLine? rest with
      | some rest => some ([], rest)
      | none => (escape? rest).map fun r => ([r.1], r.2)
    else if isBasicChar c then some ([c], rest)
    else (newline? (c :: rest)).map fun rest => (['\n'], rest)

/-- What a character that is no apostrophe stands for between tripled ones. -/
def longLiteralPiece : Reader Chars
  | [] => none
  | c :: rest =>
    if isLiteralChar c then some ([c], rest)
    else (newline? (c :: rest)).map fun rest => (['\n'], rest)

/-- What follows a line end directly after the opening. -/
def skipFirstNewline (cs : Chars) : Chars := (newline? cs).getD cs

/-- The rest of a text between tripled quotation marks. -/
def longBasicText : Reader Chars := fun cs =>
  longTextWithin '\x22' longBasicPiece (cs.length + 1) (skipFirstNewline cs)

/-- The rest of a text between tripled apostrophes. -/
def longLiteralText : Reader Chars := fun cs =>
  longTextWithin '\x27' longLiteralPiece (cs.length + 1) (skipFirstNewline cs)

/-! ### Any kind -/

/-- A text on one line. -/
def shortText : Reader Chars
  | '\x22' :: rest => basicText rest
  | '\x27' :: rest => literalText rest
  | _ => none

/-- A text of any kind. -/
def text : Reader Chars
  | '\x22' :: '\x22' :: '\x22' :: rest => longBasicText rest
  | '\x27' :: '\x27' :: '\x27' :: rest => longLiteralText rest
  | cs => shortText cs

end ZoneBus.Toml
