import SnapStore.Bytes

namespace SnapStore.Zstandard

/-!
# Content checksums

A frame can end with the low four bytes of a 64-bit hash of its contents.  The hash mixes eight-byte
words in four independent lanes, joins the lanes, mixes in what is left over, and finally stirs the
bits of the result.

* `Checksum.hash` is that hash for the seed zero.
* `Checksum.ofContent` are the four bytes that a frame ends with.
-/

namespace Checksum

/-- The multipliers of the hash. -/
def prime1 : UInt64 := 11400714785074694791
@[inherit_doc prime1] def prime2 : UInt64 := 14029467366897019727
@[inherit_doc prime1] def prime3 : UInt64 := 1609587929392839161
@[inherit_doc prime1] def prime4 : UInt64 := 9650029242287828579
@[inherit_doc prime1] def prime5 : UInt64 := 2870177450012600261

/-- Rotation to the left. -/
def rotate (x : UInt64) (n : UInt64) : UInt64 := (x <<< n) ||| (x >>> (64 - n))

/-- One word enters a lane. -/
def enter (lane word : UInt64) : UInt64 := rotate (lane + word * prime2) 31 * prime1

/-- A lane joins the hash. -/
def join (hash lane : UInt64) : UInt64 := (hash ^^^ enter 0 lane) * prime1 + prime4

/-- The word whose little-endian bytes are given. -/
def word (b : Bytes) : UInt64 := UInt64.ofNat (Bytes.toNatLE b)

/-- The full words of a byte string, and the bytes after the last of them. -/
def words : Bytes → List UInt64 × Bytes
  | b0 :: b1 :: b2 :: b3 :: b4 :: b5 :: b6 :: b7 :: b =>
    let (ws, tail) := words b
    (word [b0, b1, b2, b3, b4, b5, b6, b7] :: ws, tail)
  | tail => ([], tail)

/-- The four lanes. -/
structure Lanes where
  a : UInt64 := prime1 + prime2
  b : UInt64 := prime2
  c : UInt64 := 0
  d : UInt64 := 0 - prime1

/-- Feeds words to the lanes, four at a time, and returns those left over. -/
def Lanes.feed (l : Lanes) : List UInt64 → Lanes × List UInt64
  | w :: x :: y :: z :: ws => (Lanes.mk (enter l.a w) (enter l.b x) (enter l.c y) (enter l.d z)).feed ws
  | ws => (l, ws)

/-- The lanes as one value. -/
def Lanes.merge (l : Lanes) : UInt64 :=
  [l.a, l.b, l.c, l.d].foldl join
    (rotate l.a 1 + rotate l.b 7 + rotate l.c 12 + rotate l.d 18)

/-- Mixes a left-over word into the hash. -/
def mixWord (hash w : UInt64) : UInt64 := rotate (hash ^^^ enter 0 w) 27 * prime1 + prime4

/-- Mixes a left-over byte into the hash. -/
def mixByte (hash : UInt64) (x : UInt8) : UInt64 :=
  rotate (hash ^^^ (UInt64.ofNat x.toNat * prime5)) 11 * prime1

/-- Mixes up to seven left-over bytes into the hash: four at once where there are four. -/
def mixTail (hash : UInt64) : Bytes → UInt64
  | b0 :: b1 :: b2 :: b3 :: b =>
    b.foldl mixByte (rotate (hash ^^^ (word [b0, b1, b2, b3] * prime1)) 23 * prime2 + prime3)
  | b => b.foldl mixByte hash

/-- Lets every bit of the hash depend on every other. -/
def stir (h : UInt64) : UInt64 :=
  let h := (h ^^^ (h >>> 33)) * prime2
  let h := (h ^^^ (h >>> 29)) * prime3
  h ^^^ (h >>> 32)

/-- The hash of a byte string. -/
def hash (b : Bytes) : UInt64 :=
  let (ws, tail) := words b
  let (lanes, left) := ({} : Lanes).feed ws
  let start := if b.length < 32 then prime5 else lanes.merge
  stir (mixTail (left.foldl mixWord (start + UInt64.ofNat b.length)) tail)

/-- The checksum of a frame's contents. -/
def ofContent (b : Bytes) : Bytes := Bytes.ofNatLE 4 (hash b).toNat

@[simp] theorem length_ofContent (b : Bytes) : (ofContent b).length = 4 := by simp [ofContent]

end Checksum

end SnapStore.Zstandard
