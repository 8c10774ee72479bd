import SnapStore.Text.Lossy

namespace SnapStore

/-!
# Paths

A path is a byte string in which slashes separate names.  Mostly it is a text, but the system does not
insist on that.

* `Path.ofString` is the path that a text spells, `Path.text?` the text of a path, if it is one, and
  `Path.display` the path as it is shown.
* `Path.components` is what a path says: repeated and trailing slashes and inner dots mean nothing, a
  leading dot is kept.
* `Path.join` puts one path behind another; an absolute one replaces what is in front of it.
* `Path.parent?` is the path without its last component.
-/

/-- A path, as it is written. -/
structure Path where
  bytes : Bytes
  deriving DecidableEq, Repr, Inhabited

/-- A part of a path. -/
inductive Component
  | /-- The root directory, at the front of an absolute path. -/ root
  | /-- A dot at the front of a relative path. -/ current
  | /-- Two dots. -/ up
  | /-- A name. -/ name (name : Bytes)
  deriving DecidableEq, Repr

namespace Path

/-- The byte between names. -/
abbrev slash : UInt8 := 0x2f

/-- The byte that stands for the same directory, and twice for the one above it. -/
@[match_pattern] abbrev dot : UInt8 := 0x2e

/-- The path that a text spells. -/
def ofString (s : String) : Path := ⟨Bytes.ofString s⟩

/-- The text of a path, if it is one. -/
def text? (p : Path) : Option String := Bytes.toString? p.bytes

/-- A path as it is shown. -/
def display (p : Path) : String := Text.lossy p.bytes

@[simp] theorem text?_ofString (s : String) : (ofString s).text? = some s := Bytes.toString?_ofString s

@[simp] theorem display_ofString (s : String) : (ofString s).display = s := Text.lossy_ofString s

/-- The parts between slashes. -/
def splitSlashes : Bytes → List Bytes
  | [] => [[]]
  | x :: b =>
    if x = slash then [] :: splitSlashes b
    else match splitSlashes b with
      | part :: parts => (x :: part) :: parts
      | [] => [[x]]

/-- Parts with slashes between them. -/
def joinSlashes (parts : List Bytes) : Bytes := [slash].intercalate parts

/-- Whether a path starts at the root directory. -/
def isAbsolute (p : Path) : Bool := p.bytes.head? == some slash

/-- Whether a part between slashes means nothing, unless it starts a relative path. -/
def isIdle (part : Bytes) : Bool := part == [] || part == [dot]

/-- The component at the front of a path that only stands there, if there is one, and the parts
behind it. -/
def front (p : Path) : Option Component × List Bytes :=
  match splitSlashes p.bytes with
  | [] :: parts => (if p.isAbsolute then some .root else none, parts)
  | [dot] :: parts => (some .current, parts)
  | parts => (none, parts)

/-- One path behind another.  A slash comes between them unless the first one is empty or ends with
one. -/
def join (p q : Path) : Path :=
  if q.isAbsolute then q
  else if p.bytes.getLast?.all (· == slash) then ⟨p.bytes ++ q.bytes⟩
  else ⟨p.bytes ++ slash :: q.bytes⟩

/-- The path without its last component and what means nothing around it; none for the root directory
and the empty path. -/
def parent? (p : Path) : Option Path :=
  let (front, parts) := p.front
  let text (body : List Bytes) : Bytes :=
    match front with
    | some .root => slash :: joinSlashes body
    | some .current => if body.isEmpty then [dot] else dot :: slash :: joinSlashes body
    | _ => joinSlashes body
  match parts.reverse.dropWhile isIdle with
  | _ :: before => some ⟨text (before.dropWhile isIdle).reverse⟩
  | [] => if front = some .current then some ⟨[]⟩ else none

end Path

end SnapStore
