import SnapStore.Zstandard.Fault

namespace SnapStore.Zstandard

/-!
# Bit streams that are read backwards

The coded parts of a compressed block are bit streams that are written forwards, end with a marker
bit, the highest set bit of their last byte, and are read from there towards their first byte.

* `word` is a little-endian number inside a byte array.
* `Backward` is a place in a stream, `Backward.open?` the place before the marker.
* `Backward.peek` and `Backward.peekWhole` look at the next bits, `Backward.skip` moves on.

A decoder sees a stream through a window of eight bytes, which stays at the start of the stream once it
is there.  Whoever reads on past the start goes round in that window.  A stream that is read so far is
broken, but which fault is met first depends on what is found there.  The two ways to look differ in
that, and only in that.
-/

/-- The little-endian number that `n` bytes form, from a place in an array on; beyond the end of the
array, bytes are zero. -/
def word (data : Array UInt8) (i : Nat) : Nat → Nat
  | 0 => 0
  | n + 1 => (data.getD i 0).toNat + 256 * word data (i + 1) n

/-- A place in a stream. -/
structure Backward where
  data : Array UInt8
  /-- Where the first byte of the stream is. -/
  start : Nat
  /-- Where the bytes end that belong to the stream. -/
  stop : Nat
  /-- The number of bits between the start of the stream and the place; if that is negative, the stream
  has been overrun. -/
  left : Int

namespace Backward

/-- The place before the marker of a stream, if it has a marker. -/
def open? (data : Array UInt8) (start stop : Nat) : Option Backward :=
  let last := (data.getD (stop - 1) 0).toNat
  if stop ≤ start ∨ last = 0 then none
  else some { data, start, stop, left := (8 * (stop - 1 - start) + Nat.log2 last : Nat) }

/-- The window at the start of the stream. -/
def window (b : Backward) : Nat := word b.data b.start (min 8 (b.stop - b.start))

/-- The `n ≤ 32` bits in front of a place that has as many of them. -/
def bitsBefore (b : Backward) (n : Nat) : Nat :=
  let low := b.left.toNat - n
  word b.data (b.start + low / 8) 5 / Nat.pow 2 (low % 8) % Nat.pow 2 n

/-- The number that the next `n ≤ 32` bits form.  Where the window ends, zeros follow. -/
def peek (b : Backward) (n : Nat) : Nat :=
  if n ≤ b.left then b.bitsBefore n
  else b.window * Nat.pow 2 ((64 - b.left) % 64).toNat % Nat.pow 2 64 / Nat.pow 2 (64 - n)

/-- The number that the next `n ≤ 32` bits form.  Where the window ends, its other end follows, or
else zeros. -/
def peekWhole (b : Backward) (n : Nat) : Nat :=
  if n ≤ b.left then b.bitsBefore n
  else b.window / Nat.pow 2 ((b.left - n) % 64).toNat % Nat.pow 2 n

/-- The place `n` bits further on. -/
def skip (b : Backward) (n : Nat) : Backward := { b with left := b.left - n }

/-- Reads a number of `n` bits. -/
def read (b : Backward) (n : Nat) : Nat × Backward := (b.peek n, b.skip n)

/-- Reads a number of `n` bits; see `peekWhole`. -/
def readWhole (b : Backward) (n : Nat) : Nat × Backward := (b.peekWhole n, b.skip n)

/-- Whether a stream has been read to its start and not further. -/
def isDone (b : Backward) : Bool := b.left == 0

end Backward

end SnapStore.Zstandard
