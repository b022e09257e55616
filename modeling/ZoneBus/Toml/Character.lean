/-!
# TOML: characters

Which characters may stand where, and what may be skipped.

## Main definitions

* `isBlank`, `isCommentChar`, `isBasicChar`, `isLiteralChar`, `isBareKeyChar` — the
  classes of characters.
* `skipBlanks`, `skipFiller` — what follows blanks, and what follows blanks, line
  ends and comments.
* `lineEnd?` — what follows the end of a line, when nothing but a comment is left.
-/

namespace ZoneBus.Toml

/-- The rest of a text that is being read. -/
abbrev Chars := List Char

/-- What a reader gives: what it has read, and the text after it. -/
abbrev Reader (α : Type) := Chars → Option (α × Chars)

/-- Whether a character separates without ending the line. -/
def isBlank (c : Char) : Bool := c == ' ' || c == '\t'

/-- Whether a character is none of ASCII. -/
def isWide (c : Char) : Bool := decide (0x80 ≤ c.toNat)

/-- Whether a character shows itself, or is none of ASCII. -/
def isShown (c : Char) : Bool := (decide (0x20 ≤ c.toNat) && decide (c.toNat ≤ 0x7E)) || isWide c

/-- Whether a character may stand in a comment. -/
def isCommentChar (c : Char) : Bool := c == '\t' || isShown c

/-- Whether a character stands for itself between quotation marks. -/
def isBasicChar (c : Char) : Bool := isCommentChar c && c != '\x22' && c != '\\'

/-- Whether a character stands for itself between apostrophes. -/
def isLiteralChar (c : Char) : Bool := isCommentChar c && c != '\x27'

/-- Whether a character may stand in a key without quotation marks. -/
def isBareKeyChar (c : Char) : Bool := c.isAlphanum || c == '_' || c == '-'

/-- What follows one line end. -/
def newline? : Chars → Option Chars
  | '\n' :: rest => some rest
  | '\r' :: '\n' :: rest => some rest
  | _ => none

/-- What follows blanks. -/
def skipBlanks (cs : Chars) : Chars := cs.dropWhile isBlank

/-- What follows blanks, line ends and comments; the flag tells whether a comment
has begun. -/
def skipFillerFrom : Bool → Chars → Chars
  | _, [] => []
  | inComment, c :: rest =>
    if inComment && isCommentChar c then skipFillerFrom true rest
    else if c == '\n' then skipFillerFrom false rest
    else if c == '\r' then if rest.head? == some '\n' then skipFillerFrom false rest else c :: rest
    else if isBlank c then skipFillerFrom false rest
    else if c == '#' then skipFillerFrom true rest
    else c :: rest

/-- What follows blanks, line ends and comments. -/
def skipFiller (cs : Chars) : Chars := skipFillerFrom false cs

/-- What follows a comment, if there is one. -/
def skipComment : Chars → Chars
  | '#' :: rest => rest.dropWhile isCommentChar
  | cs => cs

/-- What follows the end of the line, when nothing but blanks and a comment are left
of it. -/
def lineEnd? (cs : Chars) : Option Chars :=
  match skipComment (skipBlanks cs) with
  | [] => some []
  | cs => newline? cs

end ZoneBus.Toml
