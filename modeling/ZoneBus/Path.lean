import ZoneBus.Error

/-!
# Paths

A path names a place in the tree of variables that a device keeps.  On the wire
it is its length in one byte, followed by its elements, so a path has at most
255 elements; the bound is part of the type.

## Main definitions

* `Path` — at most 255 elements.
* `Path.ofElements` — the path with the given elements, refusing too many.
* `Path.navigate` — a path with one more element.
* `Path.encode`, `Path.decode` — the bytes of a path and back.
* `Path.display` — a path as people read it.

## Main results

* `Path.decode_encode_append` — a path is read back from its bytes, and the
  bytes that follow are left over.
-/

namespace ZoneBus

/-- A place in the tree of variables of a device. -/
structure Path where
  /-- The elements from the root down. -/
  elements : Bytes
  /-- The length fits into one byte. -/
  length_le : elements.length ≤ maxPathLength := by decide
deriving DecidableEq

namespace Path

/-- The root of a device: the path without elements. -/
def root : Path := ⟨[], by decide⟩

instance : Inhabited Path := ⟨root⟩

@[ext] theorem ext {p q : Path} (h : p.elements = q.elements) : p = q := by
  cases p; cases q; cases h; rfl

/-- The number of elements. -/
def length (p : Path) : Nat := p.elements.length

/-- Whether the path is the root. -/
def isRoot (p : Path) : Bool := p.elements.isEmpty

/-- The path with the given elements. -/
def ofElements (elements : Bytes) : Except ProtocolError Path :=
  if h : elements.length ≤ maxPathLength then .ok ⟨elements, h⟩
  else .error (.pathTooLong elements.length)

/-- The path one element further down. -/
def navigate (p : Path) (element : UInt8) : Except ProtocolError Path :=
  ofElements (p.elements ++ [element])

/-- The number of bytes of a path on the wire. -/
def encodedLength (p : Path) : Nat := 1 + p.length

/-- The bytes of a path: its length, then its elements. -/
def encode (p : Path) : Bytes := UInt8.ofNat p.length :: p.elements

/-- The path at the start of the bytes, and the bytes after it. -/
def decode : Bytes → Except ProtocolError (Path × Bytes)
  | [] => .error (.malformedPath 0 0)
  | declared :: rest =>
    if rest.length < declared.toNat then .error (.malformedPath declared.toNat rest.length)
    else
      .ok (⟨rest.take declared.toNat, by
        have : declared.toNat < 256 := declared.toNat_lt
        simp only [List.length_take, maxPathLength]; omega⟩, rest.drop declared.toNat)

/-- Whether a sequence of elements comes no later than another: element by
element, a shorter path before its extensions. -/
def elementsLe : Bytes → Bytes → Bool
  | [], _ => true
  | _ :: _, [] => false
  | a :: as, b :: bs => if a = b then elementsLe as bs else a < b

/-- Paths are ordered element by element, a path before those below it. -/
def le (p q : Path) : Bool := elementsLe p.elements q.elements

/-- The elements in decimal, between brackets and with commas. -/
def display (p : Path) : String :=
  "[" ++ String.intercalate "," (p.elements.map fun e => toString e.toNat) ++ "]"

@[simp] theorem length_encode (p : Path) : p.encode.length = p.encodedLength := by
  simp [encode, encodedLength, length, Nat.add_comm]

/-- The elements of a path make that path. -/
@[simp] theorem ofElements_elements (p : Path) : ofElements p.elements = .ok p := by
  simp [ofElements, p.length_le]

/-- A path is read back from its bytes, and the bytes that follow are left. -/
@[simp] theorem decode_encode_append (p : Path) (rest : Bytes) :
    decode (p.encode ++ rest) = .ok (p, rest) := by
  have h : p.elements.length % 256 = p.elements.length :=
    Nat.mod_eq_of_lt (Nat.lt_of_le_of_lt p.length_le (by decide))
  simp only [encode, List.cons_append, decode, length, UInt8.toNat_ofNat', Nat.reducePow, h,
    List.length_append]
  rw [if_neg (by omega)]
  simp

end Path

end ZoneBus
