import ZoneBus.Path
import ZoneBus.Text.Numeral
import ZoneBus.Text.Quoted

/-!
# Paths as people type them

The elements of a path in decimal with dots between them; the root is the empty
text.

## Main definitions

* `Path.toText` — a path as people type it.
* `Path.ofText` — the path that somebody typed.
* `PathTextError` — why a text is no path.
-/

namespace ZoneBus

/-- Why a text is no path. -/
inductive PathTextError where
  /-- This part is no number from 0 to 255. -/
  | element (part : List Char) (cause : NumeralError)
  /-- The elements make no path. -/
  | path (cause : ProtocolError)
deriving DecidableEq

/-- The text of an error. -/
def PathTextError.message : PathTextError → String
  | element part cause => s!"{String.ofList (quoted part)}: {cause.message}"
  | path cause => cause.message

namespace Path

/-- A text cut at every dot. -/
def splitDots : List Char → List (List Char)
  | [] => [[]]
  | c :: rest =>
    if c = '.' then [] :: splitDots rest
    else
      match splitDots rest with
      | part :: parts => (c :: part) :: parts
      | [] => [[c]]

/-- One element. -/
def elementOfText (part : List Char) : Except PathTextError UInt8 :=
  match Numeral.natural 255 part with
  | .ok n => .ok (UInt8.ofNat n)
  | .error e => .error (.element part e)

/-- The elements in some parts; the first part that is wrong decides. -/
def elementsOfText : List (List Char) → Except PathTextError Bytes
  | [] => .ok []
  | part :: parts =>
    match elementOfText part with
    | .error e => .error e
    | .ok b => (elementsOfText parts).map (b :: ·)

/-- The path that somebody typed. -/
def ofText (text : List Char) : Except PathTextError Path :=
  match if text.isEmpty then .ok [] else elementsOfText (splitDots text) with
  | .error e => .error e
  | .ok elements =>
    match ofElements elements with
    | .ok p => .ok p
    | .error e => .error (.path e)

/-- Parts with a dot between them. -/
def joinDots : List (List Char) → List Char
  | [] => []
  | [part] => part
  | part :: parts => part ++ '.' :: joinDots parts

/-- A path as people type it. -/
def toText (p : Path) : List Char :=
  joinDots (p.elements.map fun b => Nat.toDigits 10 b.toNat)

end Path

end ZoneBus
