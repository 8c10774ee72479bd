import SnapStore.Zstandard.Source

namespace SnapStore.Zstandard

/-!
# Magic numbers

A frame begins with four bytes that say what it is: a frame with contents, a frame to be skipped, or a
frame of an earlier edition of the format.

* `Edition` are the earlier editions that are still read.
* `Frame.start` recognises what stands at the front of a source.
-/

/-- An earlier edition of the format. -/
inductive Edition
  | fourth | fifth | sixth | seventh
  deriving DecidableEq, Repr

namespace Frame

/-- What a frame with contents starts with. -/
def magic : Bytes := [0x28, 0xb5, 0x2f, 0xfd]

/-- What a skippable frame starts with, its first byte apart: that one is any from `0x50` to
`0x5f`. -/
def skippableMagicTail : Bytes := [0x2a, 0x4d, 0x18]

/-- What frames of the earliest editions start with, which are no longer read. -/
def outdatedMagics : List Bytes :=
  [[0xfd, 0x2f, 0xb5, 0x1e], [0x22, 0xb5, 0x2f, 0xfd], [0x23, 0xb5, 0x2f, 0xfd]]

/-- What frames of earlier editions start with. -/
def editionMagics : List (Bytes × Edition) :=
  [([0x24, 0xb5, 0x2f, 0xfd], .fourth), ([0x25, 0xb5, 0x2f, 0xfd], .fifth),
    ([0x26, 0xb5, 0x2f, 0xfd], .sixth), ([0x27, 0xb5, 0x2f, 0xfd], .seventh)]

/-- What the start of a source is. -/
inductive Start
  | /-- A frame with contents. -/ contents
  | /-- A skippable frame. -/ skippable
  | /-- A frame of an earlier edition. -/ earlier (edition : Edition)
  | /-- A frame of an edition that is no longer read. -/ outdated
  | /-- Too short to tell. -/ short
  | /-- None of these. -/ unknown
  deriving DecidableEq, Repr

/-- Recognises a frame of an earlier edition. -/
def startEarlier (front : Bytes) : Start :=
  if front ∈ outdatedMagics then .outdated
  else match editionMagics.find? (·.1 = front) with
    | some (_, e) => .earlier e
    | none => .unknown

/-- The number of bytes that have to be in sight for an earlier edition to be recognised. -/
def leastSight : Nat := 5

/-- Recognises what stands at the front of a source, as far as it is there. -/
def start (s : Source) : Start :=
  let front := s.rest.take 4
  if front = magic then .contents
  else if front.isPrefixOf magic then .short
  else match front with
    | x :: tail =>
      if x &&& 0xf0 = 0x50 ∧ tail.isPrefixOf skippableMagicTail then
        if tail.length = 3 then .skippable else .short
      else if (s.rest.take (min leastSight s.sight)).length = leastSight then startEarlier front
      else .unknown
    | [] => .short

end Frame

end SnapStore.Zstandard
