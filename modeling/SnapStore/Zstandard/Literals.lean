import SnapStore.Zstandard.Streams

namespace SnapStore.Zstandard

/-!
# The literals of a compressed block

A compressed block starts with the bytes that its sequences do not copy from elsewhere.  They stand
there as they are, as one repeated byte, or in a prefix code, which comes with them or is the one of
an earlier block.

* `Space` is the room that a block has.
* `Literals.Header.read` reads how literals are stored and how many there are.
* `Literals.read` reads them and finds a `Place` for them until they are used.
-/

/-- The room that a block has. -/
structure Space where
  /-- The most bytes that a block of the frame can store or produce. -/
  limit : Nat
  /-- The number of bytes that can still go into the buffer. -/
  room : Nat
  /-- Whether the whole frame is decoded at once. -/
  atOnce : Bool
  deriving DecidableEq, Repr

namespace Space

/-- The most bytes that a block can produce in this room. -/
def capacity (s : Space) : Nat := min s.limit s.room

end Space

/-- Where literals are while they wait. -/
inductive Place
  | /-- In a place of their own. -/ aside
  | /-- In the buffer, behind everything that the block can produce. -/ behind
  | /-- In the buffer at the end of what the block can produce, but for the last ones, which are in a
    place of their own. -/ split
  deriving DecidableEq, Repr

namespace Place

/-- The number of literals that fit into a place of their own. -/
def ownRoom : Nat := 65536

/-- The number of bytes that are kept free between literals and what is produced. -/
def gap : Nat := 32

/-- The place of `count` literals. -/
def choose (space : Space) (count : Nat) : Place :=
  if space.atOnce && space.limit + count + 2 * gap < space.room then .behind
  else if count ≤ ownRoom then .aside
  else .split

/-- The room that is left for what the block produces. -/
def room (p : Place) (space : Space) : Nat :=
  match p with
  | .behind => space.limit + gap
  | _ => space.room

/-- Whether `n` literals of `count`, from the one with the number `used` on, would be overwritten before
they are used when the block has produced `produced` bytes. -/
def isLost (p : Place) (space : Space) (count used n produced : Nat) : Bool :=
  p = .split && used + n + ownRoom ≤ count &&
    (space.capacity + ownRoom + used < produced + count + gap &&
      produced + count + gap < space.capacity + ownRoom + used + n)

end Place

/-- The literals of a block. -/
structure Literals where
  bytes : Array UInt8
  place : Place
  /-- The code that a later block can refer to. -/
  code : Option PrefixCode
  /-- The number of bytes that they take in the block. -/
  size : Nat

namespace Literals

/-- The most bytes that a block can produce. -/
def blockLimit : Nat := 128 * 1024

/-- How literals are stored. -/
inductive Storage
  | /-- As they are. -/ plain
  | /-- As one byte. -/ repeated
  | /-- In a code that stands before them. -/ coded
  | /-- In the code of an earlier block. -/ recoded
  deriving DecidableEq, Repr

/-- The storage in the lowest two bits of a number. -/
def Storage.ofBits (n : Nat) : Storage :=
  match n % 4 with
  | 0 => .plain
  | 1 => .repeated
  | 2 => .coded
  | _ => .recoded

/-- What the header says about the literals. -/
structure Header where
  /-- The number of bytes of the header. -/
  length : Nat
  /-- The number of literals. -/
  count : Nat
  /-- The number of bytes of coded literals, their code included. -/
  size : Nat := 0
  /-- Whether coded literals are split into four streams. -/
  fourStreams : Bool := false

/-- The smallest number of literals in four streams. -/
def leastInFour : Nat := 6

/-- Refuses a block of less than `n` bytes. -/
def require (n : Nat) (data : Array UInt8) : Except Fault Unit :=
  if data.size < n then .error .corrupted else .ok ()

/-- Reads the header.  Behind the storage are two bits for the width of the numbers, of which the second
one belongs to the count where the narrowest width is meant. -/
def Header.read (storage : Storage) (data : Array UInt8) : Except Fault Header := do
  let width := word data 0 1 / 4 % 4
  match storage with
  | .coded | .recoded =>
    require 5 data
    let (length, bits) := match width with
      | 0 => (3, 10)
      | 1 => (3, 10)
      | 2 => (4, 14)
      | _ => (5, 18)
    let n := word data 0 length / 16
    pure { length, count := n % Nat.pow 2 bits, size := n / Nat.pow 2 bits, fourStreams := width ≠ 0 }
  | _ =>
    let length := match width with
      | 1 => 2
      | 3 => 3
      | _ => 1
    require (if storage = .repeated then length + 1 else length) data
    pure { length, count := word data 0 length / (if width % 2 = 0 then 8 else 16) }

/-- Reads coded literals with their code, or with that of an earlier block. -/
def readCoded (h : Header) (earlier : Option PrefixCode) (data : Array UInt8) :
    Except Fault (Array UInt8 × PrefixCode) := do
  let (code, start) ← match earlier with
    | some code => pure (code, 0)
    | none =>
      let (weights, start) ← PrefixCode.readWeights data
      if data.size ≤ start then throw .corrupted
      match PrefixCode.ofWeights (h.fourStreams && PrefixCode.prefersPairs h.count data.size) weights with
      | some code => pure (code, start)
      | none => throw .corrupted
  let bytes ← if h.fourStreams then code.decodeFour h.count data start
    else code.decodeOne h.count data start data.size
  pure (bytes, code)

/-- Reads the literals of a block, where `earlier` is the code of an earlier block. -/
def read (space : Space) (earlier : Option PrefixCode) (data : Array UInt8) :
    Except Fault Literals := do
  require 2 data
  let storage := Storage.ofBits (word data 0 1)
  if storage = .recoded && earlier.isNone then throw .missingCode
  let h ← Header.read storage data
  if space.limit < h.count then throw .corrupted
  let place := Place.choose space h.count
  match storage with
  | .plain =>
    if space.capacity < h.count then throw .outputTooSmall
    require (h.length + h.count) data
    let near := data.size < h.length + h.count + Place.gap
    let bytes := data.extract h.length (h.length + h.count)
    pure { bytes, place := if near then place else .aside, code := earlier, size := h.length + h.count }
  | .repeated =>
    if space.capacity < h.count then throw .outputTooSmall
    let bytes := Array.replicate h.count (data.getD h.length 0)
    pure { bytes, place, code := earlier, size := h.length + 1 }
  | _ =>
    if h.fourStreams && h.count < leastInFour then throw .literalsHeader
    require (h.length + h.size) data
    if space.capacity < h.count then throw .outputTooSmall
    let known := if storage = .recoded then earlier else none
    let (bytes, code) ← readCoded h known (data.extract h.length (h.length + h.size))
    pure { bytes, place, code, size := h.length + h.size }

end Literals

end SnapStore.Zstandard
