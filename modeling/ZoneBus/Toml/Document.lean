import ZoneBus.Toml.Item
import ZoneBus.Toml.Moment

/-!
# TOML: documents

A document is read line by line.  A line holds a pair of key and value, a header,
or nothing; the pairs after a header belong to its table.  Values between brackets
or braces may stand in each other, up to a limit that no sensible document reaches.

## Main definitions

* `keyPath` — a dotted key.
* `valueWithin` — a value, with brackets and braces nested at most so deep.
* `Statement` — what a line holds.
* `statements` — what the lines of a text hold.
* `parse` — the table of a document; nothing when the text is no document.
-/

namespace ZoneBus.Toml

/-! ### Keys -/

/-- One key. -/
def simpleKey (cs : Chars) : Option (Key × Chars) :=
  match shortText cs with
  | some (ds, rest) => some (String.ofList ds, rest)
  | none =>
    let name := cs.takeWhile isBareKeyChar
    if name.isEmpty then none else some (String.ofList name, cs.dropWhile isBareKeyChar)

/-- A key with the tables on the way to it. -/
structure KeyPath where
  /-- The keys of the tables, from the outside. -/
  tables : List Key
  /-- The key in the last of them. -/
  key : Key

/-- One key more at the outside. -/
def KeyPath.within (table : Key) (p : KeyPath) : KeyPath := { p with tables := table :: p.tables }

/-- How many keys a path may have, less one. -/
def maxNesting : Nat := 79

/-- A dotted key of at most so many keys, and what follows it and the blanks after it. -/
def keyPathWithin : Nat → Reader KeyPath
  | 0, _ => none
  | n + 1, cs => do
    let (k, rest) ← simpleKey (skipBlanks cs)
    match skipBlanks rest with
    | '.' :: more =>
      let (p, rest) ← keyPathWithin n more
      return (p.within k, rest)
    | rest => return (⟨[], k⟩, rest)

/-- A dotted key. -/
def keyPath : Reader KeyPath := keyPathWithin maxNesting

/-! ### Values -/

/-- A dotted key, an equals sign and a value. -/
def pair (value : Reader Item) : Reader (KeyPath × Item) := fun cs => do
  let (p, rest) ← keyPath cs
  let rest ← after? '=' rest
  let (i, rest) ← value (skipBlanks rest)
  return ((p, i), rest)

/-- The values of an array and its closing bracket, with at most so many values; there
is at least one. -/
def arrayItems (value : Reader Item) : Nat → Reader (List Item)
  | 0, _ => none
  | n + 1, cs => do
    let (i, rest) ← value (skipFiller cs)
    match skipFiller rest with
    | ']' :: rest => return ([i], rest)
    | ',' :: rest =>
      match skipFiller rest with
      | ']' :: rest => return ([i], rest)
      | rest =>
        let (more, rest) ← arrayItems value n rest
        return (i :: more, rest)
    | _ => none

/-- An array after its opening bracket. -/
def array (value : Reader Item) : Reader (List Item) := fun cs =>
  match skipFiller cs with
  | ']' :: rest => some ([], rest)
  | cs => arrayItems value cs.length cs

/-- The closing brace of a table. -/
def closingBrace : Char := '\x7d'

/-- The opening brace of a table. -/
def openingBrace : Char := '\x7b'

/-- The pairs of a table between braces and its closing brace, with at most so many
pairs, added to the entries before them; there is at least one. -/
def bracedPairs (value : Reader Item) : Nat → Entries → Reader Entries
  | 0, _, _ => none
  | n + 1, es, cs => do
    let ((p, i), rest) ← pair value cs
    let es ← es.define .braced p.tables p.key i
    match skipBlanks rest with
    | [] => none
    | c :: rest =>
      if c == closingBrace then return (es, rest)
      else if c == ',' then bracedPairs value n es rest
      else none

/-- A table after its opening brace. -/
def bracedTable (value : Reader Item) : Reader Entries := fun cs =>
  match after? closingBrace (skipBlanks cs) with
  | some rest => some ([], rest)
  | none => bracedPairs value cs.length [] cs

/-- A value that holds no other. -/
def scalar : Reader Item
  | 't' :: 'r' :: 'u' :: 'e' :: rest => some (.boolean true, rest)
  | 'f' :: 'a' :: 'l' :: 's' :: 'e' :: rest => some (.boolean false, rest)
  | cs =>
    match text cs with
    | some (ds, rest) => some (.string (String.ofList ds), rest)
    | none =>
      match moment cs with
      | some rest => some (.moment, rest)
      | none =>
        match float cs with
        | some rest => some (.float, rest)
        | none => (integer cs).map fun r => (.integer r.1, r.2)

/-- A value, with brackets and braces nested at most so deep. -/
def valueWithin : Nat → Reader Item
  | _, [] => none
  | 0, cs => scalar cs
  | n + 1, c :: rest =>
    if c == '[' then (array (valueWithin n) rest).map fun r => (.array r.1, r.2)
    else if c == openingBrace then
      (bracedTable (valueWithin n) rest).map fun r => (.table .braced r.1, r.2)
    else scalar (c :: rest)

/-- A value. -/
def value : Reader Item := valueWithin maxNesting

/-! ### Lines -/

/-- What a line holds. -/
inductive Statement where
  /-- A pair of a dotted key and a value. -/
  | pair (path : KeyPath) (item : Item)
  /-- The header of a table. -/
  | header (path : KeyPath)
  /-- The header of one more table of an array. -/
  | elementHeader (path : KeyPath)

/-- A header or a pair, without the end of its line. -/
def statement : Reader Statement
  | '[' :: '[' :: rest => do
    let (p, rest) ← keyPath rest
    let rest ← after? ']' rest
    let rest ← after? ']' rest
    return (.elementHeader p, rest)
  | '[' :: rest => do
    let (p, rest) ← keyPath rest
    let rest ← after? ']' rest
    return (.header p, rest)
  | cs => (pair value cs).map fun r => (.pair r.1.1 r.1.2, r.2)

/-- What at most so many lines hold; nothing when one of them is wrong. -/
def statementsWithin : Nat → Chars → Option (List Statement)
  | 0, cs => if cs.isEmpty then some [] else none
  | n + 1, cs =>
    match skipBlanks cs with
    | [] => some []
    | c :: rest =>
      if c == '#' || c == '\n' || c == '\r' then do
        statementsWithin n (← lineEnd? (c :: rest))
      else do
        let (s, rest) ← statement (c :: rest)
        return s :: (← statementsWithin n (← lineEnd? rest))

/-- What the lines of a text hold. -/
def statements (cs : Chars) : Option (List Statement) := statementsWithin cs.length cs

/-! ### Documents -/

/-- A document that has been read in part. -/
structure Draft where
  /-- Its table. -/
  root : Entries
  /-- The keys of the table that pairs belong to. -/
  current : List Key

/-- Takes one more line. -/
def Draft.add (d : Draft) : Statement → Option Draft
  | .pair p i =>
    (Entries.modifyAt false (fun kind es => es.define kind p.tables p.key i) d.current .header
      d.root).map fun root => { d with root := root }
  | .header p => (d.root.openTable p.tables p.key).map fun root => ⟨root, p.tables ++ [p.key]⟩
  | .elementHeader p =>
    (d.root.appendTable p.tables p.key).map fun root => ⟨root, p.tables ++ [p.key]⟩

/-- A text without the mark that may stand before it. -/
def dropMark : Chars → Chars
  | [] => []
  | c :: rest => if c.toNat == 0xFEFF then rest else c :: rest

/-- The table of a document; nothing when the text is no document. -/
def parse (cs : Chars) : Option Entries := do
  let lines ← statements (dropMark cs)
  let draft ← lines.foldlM Draft.add ⟨[], []⟩
  return draft.root

end ZoneBus.Toml
