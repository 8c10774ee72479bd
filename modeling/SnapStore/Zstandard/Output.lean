import SnapStore.Zstandard.Bits

namespace SnapStore.Zstandard

/-!
# What a frame produces

A decoder writes the contents of a frame into a buffer of limited size, from where they are handed on,
and goes back to the front of the buffer when it comes near the end.  Blocks copy from what is still
in the buffer, also from what it held before it went back, as far as that has not been overwritten.

* `Output` are the contents of a frame so far and where the buffer is in them.
* `Output.copy` repeats a part of them.
* `Output.settle` goes back to the front of the buffer.

Nothing stops a block from copying what has been overwritten: then it gets what is there now.
-/

/-- The contents of a frame so far. -/
structure Output where
  content : Array UInt8 := #[]
  /-- The place in the contents where the front of the buffer is. -/
  base : Nat := 0
  /-- The number of bytes in front of that place that were the last ones to be written to the buffer before
  it was started again.  They were written to its front, too. -/
  reach : Nat := 0

namespace Output

/-- The number of bytes in the buffer since it was started again. -/
def used (o : Output) : Nat := o.content.size - o.base

/-- Whether there is something to copy so far back. -/
def canReach (o : Output) (distance : Nat) : Bool := 0 < distance && distance ≤ o.used + o.reach

/-- Puts bytes behind the contents. -/
def append : Output → Array UInt8 → Output
  | ⟨content, base, reach⟩, bytes => ⟨content ++ bytes, base, reach⟩

/-- Repeats `n` bytes from `distance` back, one after the other, so that the copy may reach into
itself. -/
def repeatFrom (distance : Nat) : Nat → Array UInt8 → Array UInt8
  | 0, out => out
  | n + 1, out => repeatFrom distance n (out.push (out.getD (out.size - distance) 0))

/-- The byte in the buffer at a place that was written before it was started again, or since then. -/
def slot (content : Array UInt8) (base reach i : Nat) : UInt8 :=
  if base + i < content.size then content.getD (base + i) 0 else content.getD (base - reach + i) 0

/-- Copies `n` bytes from `distance` back to the end.  What lies before the front of the buffer comes
from the places where it was written, as they are when the copy begins. -/
def copy : Output → Nat → Nat → Output
  | ⟨content, base, reach⟩, distance, n =>
    let before := distance - (content.size - base)
    let early := min n before
    let old := (Array.range early).map fun i => slot content base reach (reach - before + i)
    ⟨repeatFrom distance (n - early) (content ++ old), base, reach⟩

/-- Starts the buffer of `size` bytes again if a block of `limit` bytes might not fit behind what it
holds, and the frame is not known to fit into it. -/
def settle (o : Output) (size limit : Nat) (contentSize : Option Nat) : Output :=
  if contentSize.all (size < ·) && size < o.used + limit then
    { o with base := o.content.size, reach := o.used }
  else o

end Output

end SnapStore.Zstandard
