/-!
# What a terminal shows

A text may hold sequences that a terminal obeys instead of showing them.  Each
begins with the escape character.  A short one ends with the next letter or sign
that may end it; a command has numbers before that; a title, a device text and a
remark go on until they are ended.  Neither a sequence nor any other control
character is shown, white space excepted.

White space may stand inside a short sequence or a command.  It is shown, and so
is all that follows it, until a control character comes: then the sequence goes
on, unless that character begins another one.

## Main definitions

* `Terminal.Place` — where one stands in a text.
* `Terminal.Place.after` — where one stands after the next character.
* `Terminal.Place.shows` — whether a character is shown.
* `Terminal.shown` — what is shown of a text.

## Main results

* `Terminal.shown_eq_self` — a text without control characters is shown as it is.
-/

namespace ZoneBus

namespace Terminal

/-- Where one stands in a text. -/
inductive Place where
  /-- Outside every sequence. -/
  | text
  /-- After the escape character. -/
  | escape
  /-- In a short sequence that has begun with a sign. -/
  | sign
  /-- In a command. -/
  | command
  /-- In a title. -/
  | title
  /-- In a remark. -/
  | remark
  /-- At the head of a device text. -/
  | device
  /-- Among the numbers at the head of a device text. -/
  | deviceNumber
  /-- Among the signs at the head of a device text. -/
  | deviceSign
  /-- In a device text whose head is wrong. -/
  | deviceRefused
  /-- In a device text, after its head. -/
  | deviceText
deriving DecidableEq, Repr

/-- Whether the number of a character lies between two bounds. -/
def within (first last : Nat) (c : Char) : Bool := decide (first ≤ c.toNat ∧ c.toNat ≤ last)

/-- Whether a character is a sign: it may stand before the end of a short sequence. -/
def isSign : Char → Bool := within 0x20 0x2F

/-- Whether a character may end a command or the head of a device text. -/
def isFinal : Char → Bool := within 0x40 0x7E

/-- Whether a character is white space that is a control character. -/
def isControlBlank (c : Char) : Bool := c == '\t' || c == '\n' || c == '\x0c' || c == '\r'

/-- Whether a character is shown outside every sequence. -/
def isPlain (c : Char) : Bool :=
  within 0x20 0x7E c || decide (0x80 ≤ c.toNat) || isControlBlank c

/-- Whether a character ends a device text or a remark: the byte `0x9C` is among
those that it is written with. -/
def endsText (c : Char) : Bool := (String.utf8EncodeChar c).contains 0x9C

/-- Where one stands after the next character. -/
def Place.after (p : Place) (c : Char) : Place :=
  if c = '\x1b' then escape
  else if c = '\x18' || c = '\x1a' then text
  else
    match p with
    | text => text
    | escape =>
      if isSign c then sign
      else if c = '[' then command
      else if c = ']' then title
      else if c = 'P' then device
      else if c = 'X' || c = '^' || c = '_' then remark
      else if within 0x30 0x7E c then text
      else escape
    | sign => if within 0x30 0x7E c then text else sign
    | command => if isFinal c then text else command
    | title => if c = '\x07' then text else title
    | remark => if endsText c then text else remark
    | device =>
      if isSign c then deviceSign
      else if within 0x30 0x3F c then deviceNumber
      else if isFinal c then deviceText
      else device
    | deviceNumber =>
      if isSign c then deviceSign
      else if within 0x3C 0x3F c then deviceRefused
      else if isFinal c then deviceText
      else deviceNumber
    | deviceSign =>
      if within 0x30 0x3F c then deviceRefused
      else if isFinal c then deviceText
      else deviceSign
    | deviceRefused => deviceRefused
    | deviceText => if endsText c then text else deviceText

/-- Whether a character is shown. -/
def Place.shows (p : Place) (c : Char) : Bool :=
  match p with
  | text => isPlain c
  | escape | sign | command => isControlBlank c
  | _ => false

/-- What is shown of a text that begins at a place; `running` says that the last
character was shown. -/
def shownFrom : Place → Bool → List Char → List Char
  | _, _, [] => []
  | p, true, c :: rest =>
    if isPlain c then c :: shownFrom (if 0x80 ≤ c.toNat then .text else p) true rest
    else shownFrom (p.after c) false rest
  | p, false, c :: rest =>
    if p.shows c then c :: shownFrom (p.after c) true rest else shownFrom (p.after c) false rest

/-- What is shown of a text. -/
def shown (cs : List Char) : List Char := shownFrom .text false cs

/-- A text without control characters is shown as it is. -/
theorem shown_eq_self {cs : List Char} (h : ∀ c ∈ cs, isPlain c = true) : shown cs = cs := by
  have running (p : Place) (cs : List Char) (h : ∀ c ∈ cs, isPlain c = true) :
      shownFrom p true cs = cs := by
    induction cs generalizing p with
    | nil => rfl
    | cons c rest ih =>
      rw [shownFrom, if_pos (h c List.mem_cons_self),
        ih _ fun d hd => h d (List.mem_cons_of_mem c hd)]
  cases cs with
  | nil => rfl
  | cons c rest =>
    have first : Place.text.shows c = true := h c List.mem_cons_self
    rw [shown, shownFrom, if_pos first, running _ _ fun d hd => h d (List.mem_cons_of_mem c hd)]

end Terminal

end ZoneBus
