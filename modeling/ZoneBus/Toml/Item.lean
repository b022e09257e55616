import ZoneBus.Directory

/-!
# TOML: items and tables

A document is a table of items under keys.  A key may be given once only, and a
table may be defined once only; but tables that merely came up on the way to
another one may still be defined, and a table that dotted keys made may get more
dotted keys.  How a table came to be therefore belongs to it.

## Main definitions

* `Item`, `Entries` — what stands under a key, and the entries of a table.
* `TableKind` — how a table came to be.
* `Entries.modifyAt` — changes the table at the end of a path of keys.
* `Entries.define`, `Entries.openTable`, `Entries.appendTable` — what a pair of
  key and value, a header, and a header of an array of tables do.
-/

namespace ZoneBus.Toml

/-- A key. -/
abbrev Key := String

/-- How a table came to be. -/
inductive TableKind where
  /-- Its header stands in the document, or it is the document. -/
  | header
  /-- It came up on the way to another table's header. -/
  | passed
  /-- Dotted keys made it. -/
  | dotted
  /-- It stands between braces. -/
  | braced
deriving DecidableEq, Repr

/-- What stands under a key. -/
inductive Item where
  /-- A text. -/
  | string (text : String)
  /-- A whole number. -/
  | integer (value : Int)
  /-- Any other number. -/
  | float
  /-- A truth value. -/
  | boolean (value : Bool)
  /-- A date, a time of day, or both. -/
  | moment
  /-- Values between brackets. -/
  | array (items : List Item)
  /-- A table. -/
  | table (kind : TableKind) (entries : List (Key × Item))
  /-- An array of tables, each begun by a header. -/
  | tables (elements : List (List (Key × Item)))

instance : Inhabited Item := ⟨.float⟩

/-- The entries of a table. -/
abbrev Entries := List (Key × Item)

/-- What stands under a key of a table. -/
def Entries.find? (es : Entries) (k : Key) : Option Item := Directory.findIn k es

/-- Puts an item under a key. -/
def Entries.put (es : Entries) (k : Key) (i : Item) : Entries := Directory.putIn k i es

/-- The kind of the tables that come up on the way to the end of a path. -/
def wayKind (inPair : Bool) : TableKind := if inPair then .dotted else .passed

/-- Whether the path of a pair, or of a header, may lead through a table. -/
def TableKind.isOpen (kind : TableKind) (inPair : Bool) : Bool :=
  match kind with
  | .header => !inPair
  | .braced => false
  | .passed => true
  | .dotted => true

/-- Changes the table at the end of a path; nothing when the path leads through
something else than open tables.  An array of tables stands for its last one. -/
def Entries.modifyAt (inPair : Bool) (change : TableKind → Entries → Option Entries) :
    List Key → TableKind → Entries → Option Entries
  | [], kind, es => change kind es
  | k :: path, _, es =>
    match Entries.find? es k with
    | none =>
      (modifyAt inPair change path (wayKind inPair) []).map fun sub =>
        Entries.put es k (.table (wayKind inPair) sub)
    | some (.table kind sub) =>
      if kind.isOpen inPair then
        (modifyAt inPair change path kind sub).map fun sub => Entries.put es k (.table kind sub)
      else none
    | some (.tables elements) =>
      (modifyAt inPair change path .header (elements.getLast?.getD [])).map fun sub =>
        Entries.put es k (.tables (elements.dropLast ++ [sub]))
    | some _ => none

/-- A pair of a dotted key and a value.  The table that the key leads to must have
been made by dotted keys, and the last key must be new. -/
def Entries.define (kind : TableKind) (es : Entries) (path : List Key) (k : Key) (i : Item) :
    Option Entries :=
  modifyAt true (fun kind es =>
    if decide (kind = .dotted) == path.isEmpty then none
    else if (Entries.find? es k).isSome then none
    else some (Entries.put es k i)) path kind es

/-- The header of a table.  The table must be new, or only have come up on the way to
other headers. -/
def Entries.openTable (es : Entries) (path : List Key) (k : Key) : Option Entries :=
  modifyAt false (fun _ es =>
    match Entries.find? es k with
    | none => some (Entries.put es k (.table .header []))
    | some (.table .passed sub) => some (Entries.put es k (.table .header sub))
    | some _ => none) path .header es

/-- The header of one more table of an array. -/
def Entries.appendTable (es : Entries) (path : List Key) (k : Key) : Option Entries :=
  modifyAt false (fun _ es =>
    match Entries.find? es k with
    | none => some (Entries.put es k (.tables [[]]))
    | some (.tables elements) => some (Entries.put es k (.tables (elements ++ [[]])))
    | some _ => none) path .header es

end ZoneBus.Toml
